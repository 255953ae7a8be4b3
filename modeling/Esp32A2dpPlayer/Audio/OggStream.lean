import Esp32A2dpPlayer.Concurrency.StepMachine
import Esp32A2dpPlayer.Concurrency.WaitSet

/-!
# `OggBluetoothStream`

The stream of `audio.rs` between the file and the Bluetooth stack. A thread decodes packets and
pushes their samples into a shared queue; the stack's callback reads from the other end. The
queue is behind a mutex, both sides wait on **one** condition variable, and an end-of-file flag
has a mutex of its own.

A step is a critical section, or the part of one up to a wait. `condvar.wait` releases the mutex
and registers in one step; a woken party takes the mutex back before it goes on, and may be
woken without a notification. What each read call gets and what it returns is recorded, and so
is every packet pushed.

Nothing in the source sets the flag. The action `setEndOfFile` stands for whoever might.
-/

namespace Esp32A2dpPlayer

/-- The two sides of the queue. -/
inductive Party where
  | decoder
  | reader
  deriving DecidableEq

/-- How the decoding thread fails. -/
inductive DecodeError where
  /-- `File::open`. -/
  | file
  /-- `Decoder::new`. -/
  | decoder
  /-- `Vorbis error`: one of the packets. -/
  | packet
  deriving DecidableEq

/-- What the decoding thread meets: a file, and the packets in it. -/
structure OggFile where
  opens : Bool
  decodes : Bool
  /-- The samples of each packet. -/
  packets : List (List Int16)
  /-- The packets end with an error. -/
  packetError : Bool

/-- The most samples in the queue for which the decoder still pushes a packet, plus one. -/
def bufferLimit : ℕ := 88200

/-- Where the decoding thread stands. -/
inductive DecoderPc where
  /-- Before `File::open`. -/
  | openFile
  /-- Before `Decoder::new`. -/
  | newDecoder
  /-- At the head of the `for` loop. -/
  | nextPacket
  /-- Before the first `buffer_mutex.lock()`. -/
  | lockCheck (packet : List Int16)
  /-- Holding the lock, at the condition of the `while` loop. -/
  | check (packet : List Int16)
  /-- In `condvar.wait`. -/
  | waiting (packet : List Int16)
  /-- In `buffer_packet`, before its `buffer_mutex.lock()`. -/
  | lockPush (packet : List Int16)
  /-- Holding the lock, before the samples are pushed. -/
  | push (packet : List Int16)
  /-- Holding the lock, before `condvar.notify_all()`. -/
  | notify
  | terminated (result : Except DecodeError Unit)

/-- The locals of a `read` call. -/
structure ReadFrame where
  buf : List Int16
  copyCount : ℕ

/-- Where the reader stands. -/
inductive ReaderPc where
  /-- Between two `read` calls. -/
  | idle
  /-- At the condition of the outer loop. -/
  | loopHead (f : ReadFrame)
  /-- Before `self.buffer.lock()`; `endOfStream` as read before it. -/
  | lockBuffer (f : ReadFrame) (endOfStream : Bool)
  /-- Holding the lock, at the condition of the inner loop. -/
  | checkEmpty (f : ReadFrame) (endOfStream : Bool)
  /-- In `buffer_condvar.wait`. -/
  | waiting (f : ReadFrame)
  /-- Woken and holding the lock, before the flag is read again. -/
  | readEos (f : ReadFrame)
  /-- Holding the lock, past the inner loop. -/
  | drain (f : ReadFrame) (endOfStream : Bool)
  /-- The lock released, before the samples are copied to `buf`. -/
  | copy (f : ReadFrame) (samples : List Int16)
  /-- Before `notify_all()`. -/
  | notify (f : ReadFrame)
  /-- `assert!(copy_len > 0)`, or a slice out of range. -/
  | panicked

/-- `Ok(n)` of a `read` call, and what it has left in `buf`. -/
structure ReadResult where
  buf : List Int16
  n : ℕ

/-- The stream, its thread and its reader. -/
structure OggStream where
  buffer : List Int16
  endOfFile : Bool
  /-- Who holds the mutex of the queue. -/
  lock : Option Party
  bufferCondvar : WaitSet Party
  /-- What the thread has not consumed yet. -/
  file : OggFile
  decoder : DecoderPc
  /-- The bufs of the `read` calls to come. -/
  bufs : List (List Int16)
  reader : ReaderPc
  /-- What the `read` calls have returned. -/
  returned : List ReadResult
  /-- The packets pushed so far. -/
  pushed : List (List Int16)

/-- The steps of the stream. -/
inductive StreamAction where
  | decoder
  | reader
  /-- A spurious wake-up. -/
  | wake (p : Party)
  | setEndOfFile

namespace OggStream

/-- `start` has been called, and the `read` calls are to come. -/
def start (file : OggFile) (bufs : List (List Int16)) : OggStream where
  buffer := []
  endOfFile := false
  lock := none
  bufferCondvar := .empty
  file := file
  decoder := .openFile
  bufs := bufs
  reader := .idle
  returned := []
  pushed := []

/-- One step of `decoding_thread`, with `buffer_packet`. -/
def decoderStep (s : OggStream) : Option OggStream :=
  match s.decoder with
  | .openFile =>
    if s.file.opens then some { s with decoder := .newDecoder }
    else some { s with decoder := .terminated (.error .file) }
  | .newDecoder =>
    if s.file.decodes then some { s with decoder := .nextPacket }
    else some { s with decoder := .terminated (.error .decoder) }
  | .nextPacket =>
    match s.file.packets with
    | packet :: packets => some { s with
        file := { s.file with packets }
        decoder := .lockCheck packet }
    | [] =>
      if s.file.packetError then some { s with decoder := .terminated (.error .packet) }
      else some { s with decoder := .terminated (.ok ()) }
  | .lockCheck packet =>
    match s.lock with
    | none => some { s with lock := some .decoder, decoder := .check packet }
    | some _ => none
  | .check packet =>
    if bufferLimit ≤ s.buffer.length then some { s with
      lock := none
      bufferCondvar := s.bufferCondvar.register .decoder
      decoder := .waiting packet }
    else some { s with lock := none, decoder := .lockPush packet }
  | .waiting packet =>
    match s.lock, s.bufferCondvar.status .decoder with
    | none, .notified => some { s with
        lock := some .decoder
        bufferCondvar := s.bufferCondvar.remove .decoder
        decoder := .check packet }
    | _, _ => none
  | .lockPush packet =>
    match s.lock with
    | none => some { s with lock := some .decoder, decoder := .push packet }
    | some _ => none
  | .push packet => some { s with
      buffer := s.buffer ++ packet
      pushed := s.pushed ++ [packet]
      decoder := .notify }
  | .notify => some { s with
      lock := none
      bufferCondvar := s.bufferCondvar.notifyAll
      decoder := .nextPacket }
  | .terminated _ => none

/-- `buf[start..start + samples.len()].clone_from_slice(&samples)`. -/
def cloneFromSlice (buf : List Int16) (start : ℕ) (samples : List Int16) : List Int16 :=
  buf.take start ++ samples ++ buf.drop (start + samples.length)

/-- The `read` call returns `Ok(n)`. -/
def return_ (s : OggStream) (f : ReadFrame) (n : ℕ) : OggStream :=
  { s with reader := .idle, returned := s.returned ++ [⟨f.buf, n⟩] }

/-- One step of `read`, or the next call of it. -/
def readerStep (s : OggStream) : Option OggStream :=
  match s.reader with
  | .idle =>
    match s.bufs with
    | buf :: bufs => some { s with bufs, reader := .loopHead ⟨buf, 0⟩ }
    | [] => none
  | .loopHead f =>
    if f.copyCount < f.buf.length then some { s with reader := .lockBuffer f s.endOfFile }
    else some (s.return_ f f.copyCount)
  | .lockBuffer f endOfStream =>
    match s.lock with
    | none => some { s with lock := some .reader, reader := .checkEmpty f endOfStream }
    | some _ => none
  | .checkEmpty f endOfStream =>
    if s.buffer.length = 0 ∧ endOfStream = false then some { s with
      lock := none
      bufferCondvar := s.bufferCondvar.register .reader
      reader := .waiting f }
    else some { s with reader := .drain f endOfStream }
  | .waiting f =>
    match s.lock, s.bufferCondvar.status .reader with
    | none, .notified => some { s with
        lock := some .reader
        bufferCondvar := s.bufferCondvar.remove .reader
        reader := .readEos f }
    | _, _ => none
  | .readEos f => some { s with reader := .checkEmpty f s.endOfFile }
  | .drain f endOfStream =>
    if s.buffer.length = 0 ∧ endOfStream = true then
      some { s.return_ f 0 with lock := none }
    else
      let copyLen := min (f.buf.length - f.copyCount) s.buffer.length
      if 0 < copyLen then some { s with
        buffer := s.buffer.drop copyLen
        lock := none
        reader := .copy f (s.buffer.take copyLen) }
      else some { s with reader := .panicked }
  | .copy f samples =>
    if f.copyCount + samples.length ≤ f.buf.length then some { s with
      reader := .notify
        ⟨cloneFromSlice f.buf f.copyCount samples, f.copyCount + samples.length⟩ }
    else some { s with reader := .panicked }
  | .notify f => some { s with
      bufferCondvar := s.bufferCondvar.notifyAll
      reader := .loopHead f }
  | .panicked => none

/-- One step of the stream. -/
def step (s : OggStream) : StreamAction → Option OggStream
  | .decoder => s.decoderStep
  | .reader => s.readerStep
  | .wake p =>
    match s.bufferCondvar.status p with
    | .waiting => some { s with bufferCondvar := s.bufferCondvar.wake p }
    | _ => none
  | .setEndOfFile => some { s with endOfFile := true }

/-- The stream as a machine. -/
def machine : StepMachine OggStream StreamAction := ⟨step⟩

/-! ### What a step does -/

/-- The moves of the decoding thread. -/
inductive DecoderMove (s : OggStream) : OggStream → Prop
  | opened (h : s.decoder = .openFile) (ho : s.file.opens = true) :
      DecoderMove s { s with decoder := .newDecoder }
  | notOpened (h : s.decoder = .openFile) (ho : s.file.opens = false) :
      DecoderMove s { s with decoder := .terminated (.error .file) }
  | decodes (h : s.decoder = .newDecoder) (hd : s.file.decodes = true) :
      DecoderMove s { s with decoder := .nextPacket }
  | decodesNot (h : s.decoder = .newDecoder) (hd : s.file.decodes = false) :
      DecoderMove s { s with decoder := .terminated (.error .decoder) }
  | packet {packet packets} (h : s.decoder = .nextPacket)
      (hp : s.file.packets = packet :: packets) :
      DecoderMove s { s with file := { s.file with packets }, decoder := .lockCheck packet }
  | ended {r} (h : s.decoder = .nextPacket) (hp : s.file.packets = []) :
      DecoderMove s { s with decoder := .terminated r }
  | lockCheck {packet} (h : s.decoder = .lockCheck packet) (hl : s.lock = none) :
      DecoderMove s { s with lock := some .decoder, decoder := .check packet }
  | wait {packet} (h : s.decoder = .check packet) (hb : bufferLimit ≤ s.buffer.length) :
      DecoderMove s { s with
        lock := none
        bufferCondvar := s.bufferCondvar.register .decoder
        decoder := .waiting packet }
  | room {packet} (h : s.decoder = .check packet) (hb : s.buffer.length < bufferLimit) :
      DecoderMove s { s with lock := none, decoder := .lockPush packet }
  | woken {packet} (h : s.decoder = .waiting packet) (hl : s.lock = none)
      (hw : s.bufferCondvar.status .decoder = .notified) :
      DecoderMove s { s with
        lock := some .decoder
        bufferCondvar := s.bufferCondvar.remove .decoder
        decoder := .check packet }
  | lockPush {packet} (h : s.decoder = .lockPush packet) (hl : s.lock = none) :
      DecoderMove s { s with lock := some .decoder, decoder := .push packet }
  | push {packet} (h : s.decoder = .push packet) :
      DecoderMove s { s with
        buffer := s.buffer ++ packet
        pushed := s.pushed ++ [packet]
        decoder := .notify }
  | notify (h : s.decoder = .notify) :
      DecoderMove s { s with
        lock := none
        bufferCondvar := s.bufferCondvar.notifyAll
        decoder := .nextPacket }

/-- The moves of the reader. -/
inductive ReaderMove (s : OggStream) : OggStream → Prop
  | call {buf bufs} (h : s.reader = .idle) (hb : s.bufs = buf :: bufs) :
      ReaderMove s { s with bufs, reader := .loopHead ⟨buf, 0⟩ }
  | readEos {f} (h : s.reader = .loopHead f) (hc : f.copyCount < f.buf.length) :
      ReaderMove s { s with reader := .lockBuffer f s.endOfFile }
  | return_ {f} (h : s.reader = .loopHead f) (hc : f.buf.length ≤ f.copyCount) :
      ReaderMove s (s.return_ f f.copyCount)
  | lockBuffer {f eos} (h : s.reader = .lockBuffer f eos) (hl : s.lock = none) :
      ReaderMove s { s with lock := some .reader, reader := .checkEmpty f eos }
  | wait {f} (h : s.reader = .checkEmpty f false) (hb : s.buffer = []) :
      ReaderMove s { s with
        lock := none
        bufferCondvar := s.bufferCondvar.register .reader
        reader := .waiting f }
  | nonempty {f eos} (h : s.reader = .checkEmpty f eos) (hb : s.buffer ≠ [] ∨ eos = true) :
      ReaderMove s { s with reader := .drain f eos }
  | woken {f} (h : s.reader = .waiting f) (hl : s.lock = none)
      (hw : s.bufferCondvar.status .reader = .notified) :
      ReaderMove s { s with
        lock := some .reader
        bufferCondvar := s.bufferCondvar.remove .reader
        reader := .readEos f }
  | readEosAgain {f} (h : s.reader = .readEos f) :
      ReaderMove s { s with reader := .checkEmpty f s.endOfFile }
  | endOfStream {f} (h : s.reader = .drain f true) (hb : s.buffer = []) :
      ReaderMove s { s.return_ f 0 with lock := none }
  | drain {f eos copyLen} (h : s.reader = .drain f eos)
      (hn : copyLen = min (f.buf.length - f.copyCount) s.buffer.length) (hpos : 0 < copyLen) :
      ReaderMove s { s with
        buffer := s.buffer.drop copyLen
        lock := none
        reader := .copy f (s.buffer.take copyLen) }
  | assertFails {f eos} (h : s.reader = .drain f eos) (hb : s.buffer ≠ [] ∨ eos = false)
      (hn : min (f.buf.length - f.copyCount) s.buffer.length = 0) :
      ReaderMove s { s with reader := .panicked }
  | copy {f samples} (h : s.reader = .copy f samples)
      (hc : f.copyCount + samples.length ≤ f.buf.length) :
      ReaderMove s { s with
        reader := .notify
          ⟨cloneFromSlice f.buf f.copyCount samples, f.copyCount + samples.length⟩ }
  | sliceFails {f samples} (h : s.reader = .copy f samples)
      (hc : f.buf.length < f.copyCount + samples.length) :
      ReaderMove s { s with reader := .panicked }
  | notify {f} (h : s.reader = .notify f) :
      ReaderMove s { s with
        bufferCondvar := s.bufferCondvar.notifyAll
        reader := .loopHead f }

variable {s t : OggStream}

theorem decoderMove_of_step (h : s.decoderStep = some t) : DecoderMove s t := by
  rw [decoderStep] at h
  cases hd : s.decoder with
  | openFile =>
    simp only [hd] at h
    split at h <;> cases h
    · exact .opened hd ‹_›
    · exact .notOpened hd (eq_false_of_ne_true ‹_›)
  | newDecoder =>
    simp only [hd] at h
    split at h <;> cases h
    · exact .decodes hd ‹_›
    · exact .decodesNot hd (eq_false_of_ne_true ‹_›)
  | nextPacket =>
    simp only [hd] at h
    split at h
    · cases h
      exact .packet hd ‹_›
    · split at h <;> cases h <;> exact .ended hd ‹_›
  | lockCheck packet =>
    simp only [hd] at h
    split at h <;> cases h
    exact .lockCheck hd ‹_›
  | check packet =>
    simp only [hd] at h
    split at h <;> cases h
    · exact .wait hd ‹_›
    · exact .room hd (Nat.not_le.1 ‹_›)
  | waiting packet =>
    simp only [hd] at h
    split at h <;> cases h
    exact .woken hd ‹_› ‹_›
  | lockPush packet =>
    simp only [hd] at h
    split at h <;> cases h
    exact .lockPush hd ‹_›
  | push packet =>
    simp only [hd] at h
    cases h
    exact .push hd
  | notify =>
    simp only [hd] at h
    cases h
    exact .notify hd
  | terminated r =>
    simp only [hd] at h
    cases h

theorem readerMove_of_step (h : s.readerStep = some t) : ReaderMove s t := by
  rw [readerStep] at h
  cases hr : s.reader with
  | idle =>
    simp only [hr] at h
    split at h <;> cases h
    exact .call hr ‹_›
  | loopHead f =>
    simp only [hr] at h
    split at h <;> cases h
    · exact .readEos hr ‹_›
    · exact .return_ hr (Nat.not_lt.1 ‹_›)
  | lockBuffer f eos =>
    simp only [hr] at h
    split at h <;> cases h
    exact .lockBuffer hr ‹_›
  | checkEmpty f eos =>
    simp only [hr] at h
    split at h <;> cases h
    next hb =>
      obtain ⟨hb, rfl⟩ := hb
      exact .wait hr (List.eq_nil_of_length_eq_zero hb)
    next hb => exact .nonempty hr (by grind [List.length_eq_zero_iff])
  | waiting f =>
    simp only [hr] at h
    split at h <;> cases h
    exact .woken hr ‹_› ‹_›
  | readEos f =>
    simp only [hr] at h
    cases h
    exact .readEosAgain hr
  | drain f eos =>
    simp only [hr] at h
    split at h
    next hb =>
      cases h
      obtain ⟨hb, rfl⟩ := hb
      exact .endOfStream hr (List.eq_nil_of_length_eq_zero hb)
    next hb =>
      split at h <;> cases h
      · exact .drain hr rfl ‹_›
      · exact .assertFails hr (by grind [List.length_eq_zero_iff]) (Nat.eq_zero_of_not_pos ‹_›)
  | copy f samples =>
    simp only [hr] at h
    split at h <;> cases h
    · exact .copy hr ‹_›
    · exact .sliceFails hr (Nat.not_le.1 ‹_›)
  | notify f =>
    simp only [hr] at h
    cases h
    exact .notify hr
  | panicked =>
    simp only [hr] at h
    cases h

/-- A spurious wake-up wakes a party that waits, and does nothing else. -/
theorem step_wake_cases {p : Party} (h : s.step (.wake p) = some t) :
    s.bufferCondvar.status p = .waiting ∧
      t = { s with bufferCondvar := s.bufferCondvar.wake p } := by
  simp only [step] at h
  split at h <;> cases h
  exact ⟨‹_›, rfl⟩

/-- **The decoder's frame.** The thread adds samples at the back of the queue and leaves the
reader alone. -/
theorem DecoderMove.frame (h : DecoderMove s t) :
    t.reader = s.reader ∧ t.bufs = s.bufs ∧ t.returned = s.returned ∧
      t.endOfFile = s.endOfFile ∧
      ∃ data, t.buffer = s.buffer ++ data ∧ t.pushed.flatten = s.pushed.flatten ++ data := by
  cases h with
  | push h => exact ⟨rfl, rfl, rfl, rfl, _, rfl, by simp⟩
  | _ => exact ⟨rfl, rfl, rfl, rfl, [], by simp, by simp⟩

/-- **The reader's frame.** -/
theorem ReaderMove.frame (h : ReaderMove s t) :
    t.decoder = s.decoder ∧ t.file = s.file ∧ t.pushed = s.pushed ∧
      t.endOfFile = s.endOfFile := by
  cases h <;> exact ⟨rfl, rfl, rfl, rfl⟩

/-- What a stream has returned it does not take back. -/
theorem returned_prefix_of_step {a : StreamAction} (h : s.step a = some t) :
    s.returned <+: t.returned := by
  cases a with
  | decoder =>
    obtain ⟨-, -, hreturned, -⟩ := (decoderMove_of_step h).frame
    exact hreturned ▸ List.prefix_refl _
  | reader =>
    cases readerMove_of_step h with
    | return_ _ _ | endOfStream _ _ => exact List.prefix_append ..
    | _ => exact List.prefix_refl _
  | wake p =>
    obtain ⟨-, rfl⟩ := step_wake_cases h
    exact List.prefix_refl _
  | setEndOfFile =>
    cases h
    exact List.prefix_refl _

end OggStream

end Esp32A2dpPlayer
