import Esp32A2dpPlayer.Audio.SampleFifo

/-!
# The lock and the condition variable of the queue

The two invariants of the synchronisation: a side owns the lock exactly where its code is inside
a critical section, and no wake-up is lost. The second has to look at both sides, because the
reader notifies after it has released the lock.

Both rest on the bounds of the reader's locals alone, and these do not depend on the end-of-file
flag. So they hold in **every** run (`coordinated_of_run`), and with them that the two sides never
block each other (`no_mutual_block`).
-/

namespace Esp32A2dpPlayer

/-- Inside a critical section of `decoding_thread` or `buffer_packet`. -/
def DecoderPc.HoldsLock : DecoderPc → Prop
  | .check _ => True
  | .push _ => True
  | .notify => True
  | _ => False

/-- In `condvar.wait`. -/
def DecoderPc.IsWaiting : DecoderPc → Prop
  | .waiting _ => True
  | _ => False

namespace ReaderPc

/-- What holds of the locals at each place of `read`, whether the flag is set or not. -/
def Bounded (buffer : List Int16) : ReaderPc → Prop
  | .idle => True
  | .loopHead f => f.copyCount ≤ f.buf.length
  | .lockBuffer f _ => f.copyCount < f.buf.length
  | .checkEmpty f _ => f.copyCount < f.buf.length
  | .waiting f => f.copyCount < f.buf.length
  | .readEos f => f.copyCount < f.buf.length
  | .drain f eos => f.copyCount < f.buf.length ∧ (buffer ≠ [] ∨ eos = true)
  | .copy f samples => f.copyCount + samples.length ≤ f.buf.length
  | .notify f => f.copyCount ≤ f.buf.length
  | .panicked => False

theorem Sound.bounded {buffer : List Int16} {r : ReaderPc} (h : r.Sound buffer) :
    r.Bounded buffer := by
  cases r with
  | lockBuffer f eos | checkEmpty f eos => exact h.1
  | drain f eos => exact ⟨h.1, .inl h.2.2⟩
  | _ => exact h

theorem Bounded.append {buffer : List Int16} {r : ReaderPc} (h : r.Bounded buffer)
    (data : List Int16) : r.Bounded (buffer ++ data) := by
  cases r with
  | drain f eos =>
    obtain ⟨hc, hb⟩ := h
    exact ⟨hc, hb.imp_left fun hb ↦ by simp [hb]⟩
  | _ => exact h

/-- Inside the critical section of `read`. -/
def HoldsLock : ReaderPc → Prop
  | .checkEmpty _ _ => True
  | .readEos _ => True
  | .drain _ _ => True
  | _ => False

/-- In `buffer_condvar.wait`. -/
def IsWaiting : ReaderPc → Prop
  | .waiting _ => True
  | _ => False

/-- Samples have been drained, and `notify_all` is still to come. -/
def BeforeNotify : ReaderPc → Prop
  | .copy _ _ => True
  | .notify _ => True
  | _ => False

end ReaderPc

namespace OggStream

/-- The lock is held by the side that is inside a critical section. -/
structure Locked (s : OggStream) : Prop where
  decoder : s.lock = some .decoder ↔ s.decoder.HoldsLock
  reader : s.lock = some .reader ↔ s.reader.HoldsLock

/-- Exactly the sides in `wait` are registered. A side that waits and has not been woken would
find its condition unchanged, or the other side is about to notify. -/
structure NoLostWakeup (s : OggStream) : Prop where
  decoderWaits : s.decoder.IsWaiting ↔ s.bufferCondvar.status .decoder ≠ .idle
  readerWaits : s.reader.IsWaiting ↔ s.bufferCondvar.status .reader ≠ .idle
  decoder : s.bufferCondvar.status .decoder = .waiting →
    bufferLimit ≤ s.buffer.length ∨ s.reader.BeforeNotify
  reader : s.bufferCondvar.status .reader = .waiting → s.buffer = [] ∨ s.decoder = .notify

variable {file : OggFile} {bufs : List (List Int16)} {s t : OggStream}

/-! ### The locals of the reader -/

/-- A buf with room left and a queue with samples in it have a positive minimum. -/
theorem copyLen_pos (hbounded : s.reader.Bounded s.buffer) {f : ReadFrame} {eos : Bool}
    (h : s.reader = .drain f eos) (hb : s.buffer ≠ [] ∨ eos = false) :
    0 < min (f.buf.length - f.copyCount) s.buffer.length := by
  rw [h] at hbounded
  obtain ⟨hc, hne⟩ := hbounded
  have hpos : 0 < s.buffer.length := List.length_pos_iff.2 (by grind)
  omega

theorem bounded_reader_move (hbounded : s.reader.Bounded s.buffer) (h : ReaderMove s t) :
    t.reader.Bounded t.buffer := by
  cases h with
  | call h hb => exact Nat.zero_le _
  | readEos h hc => exact hc
  | return_ h hc | endOfStream h hb => trivial
  | lockBuffer h _ | wait h _ | woken h _ _ | readEosAgain h | notify h =>
    rw [h] at hbounded
    exact hbounded
  | nonempty h hb =>
    rw [h] at hbounded
    exact ⟨hbounded, hb⟩
  | drain h hn hpos =>
    simp only [ReaderPc.Bounded, List.length_take]
    omega
  | assertFails h hb hn => exact absurd hn (Nat.ne_of_gt (copyLen_pos hbounded h hb))
  | copy h hc =>
    simp only [ReaderPc.Bounded, length_cloneFromSlice hc]
    exact hc
  | sliceFails h hc =>
    rw [h] at hbounded
    exact absurd hbounded (Nat.not_le.2 hc)

/-! ### The lock -/

theorem locked_start (file : OggFile) (bufs : List (List Int16)) : Locked (start file bufs) := by
  constructor <;> simp [start, DecoderPc.HoldsLock, ReaderPc.HoldsLock]

theorem Locked.decoder_move (hs : Locked s) (h : DecoderMove s t) : Locked t := by
  have hd := hs.decoder
  have hr := hs.reader
  cases h with
  | lockCheck h hl | woken h hl hw | lockPush h hl =>
    rw [hl] at hr
    constructor <;> simp [DecoderPc.HoldsLock, ← hr]
  | wait h hb | room h hb | notify h =>
    rw [h] at hd
    rw [hd.2 trivial] at hr
    constructor <;> simp [DecoderPc.HoldsLock, ← hr]
  | packet h _ | ended h _ | push h | opened h _ | notOpened h _ | decodes h _ | decodesNot h _ =>
    rw [h] at hd
    exact ⟨hd, hr⟩

theorem Locked.reader_move (hs : Locked s) (hbounded : s.reader.Bounded s.buffer)
    (h : ReaderMove s t) : Locked t := by
  have hd := hs.decoder
  have hr := hs.reader
  cases h with
  | lockBuffer h hl | woken h hl hw =>
    rw [hl] at hd
    constructor <;> simp [ReaderPc.HoldsLock, ← hd]
  | wait h hb | endOfStream h hb | drain h hn hpos =>
    rw [h] at hr
    rw [hr.2 trivial] at hd
    constructor <;> simp [ReaderPc.HoldsLock, OggStream.return_, ← hd]
  | assertFails h hb hn => exact absurd hn (Nat.ne_of_gt (copyLen_pos hbounded h hb))
  | sliceFails h hc =>
    rw [h] at hr
    exact ⟨hd, hr⟩
  | call h _ | readEos h _ | return_ h _ | nonempty h _ | readEosAgain h | copy h _ | notify h =>
    rw [h] at hr
    exact ⟨hd, hr⟩

theorem Locked.wake (hs : Locked s) {p : Party} (h : s.step (.wake p) = some t) : Locked t := by
  obtain ⟨-, rfl⟩ := step_wake_cases h
  exact ⟨hs.decoder, hs.reader⟩

/-! ### The wake-ups -/

theorem noLostWakeup_start (file : OggFile) (bufs : List (List Int16)) :
    NoLostWakeup (start file bufs) := by
  constructor <;> simp [start, DecoderPc.IsWaiting, ReaderPc.IsWaiting]

theorem NoLostWakeup.decoder_move (hs : NoLostWakeup s) (h : DecoderMove s t) :
    NoLostWakeup t := by
  obtain ⟨hdw, hrw, hd, hr⟩ := hs
  cases h with
  | wait h hb =>
    rw [h] at hr
    refine ⟨?_, ?_, fun _ ↦ .inl hb, fun hw ↦ ?_⟩
    · simp [DecoderPc.IsWaiting, WaitSet.register_status]
    · simpa [WaitSet.register_status] using hrw
    · exact .inl ((hr (by simpa [WaitSet.register_status] using hw)).resolve_right (by simp))
  | woken h hl hw =>
    rw [h] at hr
    refine ⟨?_, ?_, fun hw ↦ ?_, fun hw ↦ ?_⟩
    · simp [DecoderPc.IsWaiting, WaitSet.remove_status]
    · simpa [WaitSet.remove_status] using hrw
    · simp [WaitSet.remove_status] at hw
    · exact .inl ((hr (by simpa [WaitSet.remove_status] using hw)).resolve_right (by simp))
  | push h =>
    rw [h] at hdw
    exact ⟨hdw, hrw, fun hw ↦ (hd hw).imp_left fun hb ↦ by simp; omega, fun _ ↦ .inr rfl⟩
  | notify h =>
    rw [h] at hdw
    exact ⟨by simpa [DecoderPc.IsWaiting] using hdw, by simpa using hrw,
      fun hw ↦ absurd hw (s.bufferCondvar.notifyAll_status_ne_waiting _),
      fun hw ↦ absurd hw (s.bufferCondvar.notifyAll_status_ne_waiting _)⟩
  | packet h _ | ended h _ | lockCheck h _ | room h _ | lockPush h _ | opened h _ | notOpened h _
  | decodes h _ | decodesNot h _ =>
    rw [h] at hdw hr
    exact ⟨hdw, hrw, hd, fun hw ↦ .inl ((hr hw).resolve_right (by simp))⟩

theorem NoLostWakeup.reader_move (hs : NoLostWakeup s) (hbounded : s.reader.Bounded s.buffer)
    (h : ReaderMove s t) : NoLostWakeup t := by
  obtain ⟨hdw, hrw, hd, hr⟩ := hs
  cases h with
  | wait h hb =>
    rw [h] at hd
    refine ⟨?_, ?_, fun hw ↦ ?_, fun _ ↦ .inl hb⟩
    · simpa [WaitSet.register_status] using hdw
    · simp [ReaderPc.IsWaiting, WaitSet.register_status]
    · exact hd (by simpa [WaitSet.register_status] using hw)
  | woken h hl hw =>
    rw [h] at hd
    refine ⟨?_, ?_, fun hw ↦ ?_, fun hw ↦ ?_⟩
    · simpa [WaitSet.remove_status] using hdw
    · simp [ReaderPc.IsWaiting, WaitSet.remove_status]
    · exact hd (by simpa [WaitSet.remove_status] using hw)
    · simp [WaitSet.remove_status] at hw
  | drain h hn hpos =>
    rw [h] at hrw
    exact ⟨hdw, hrw, fun _ ↦ .inr trivial, fun hw ↦ (hr hw).imp_left fun hb ↦ by simp [hb]⟩
  | copy h hc =>
    rw [h] at hrw
    exact ⟨hdw, hrw, fun _ ↦ .inr trivial, hr⟩
  | sliceFails h hc =>
    rw [h] at hbounded
    exact absurd hbounded (Nat.not_le.2 hc)
  | notify h =>
    rw [h] at hrw
    exact ⟨by simpa using hdw, by simpa [ReaderPc.IsWaiting] using hrw,
      fun hw ↦ absurd hw (s.bufferCondvar.notifyAll_status_ne_waiting _),
      fun hw ↦ absurd hw (s.bufferCondvar.notifyAll_status_ne_waiting _)⟩
  | call h _ | readEos h _ | return_ h _ | lockBuffer h _ | nonempty h _ | readEosAgain h
  | endOfStream h _ | assertFails h _ _ =>
    rw [h] at hrw hd
    exact ⟨hdw, hrw, fun hw ↦ .inl ((hd hw).resolve_right id), hr⟩

theorem NoLostWakeup.wake (hs : NoLostWakeup s) {p : Party} (h : s.step (.wake p) = some t) :
    NoLostWakeup t := by
  obtain ⟨hdw, hrw, hd, hr⟩ := hs
  obtain ⟨hp, rfl⟩ := step_wake_cases h
  have hne : ∀ q, (s.bufferCondvar.wake p).status q ≠ .idle ↔ s.bufferCondvar.status q ≠ .idle := by
    intro q
    rw [WaitSet.wake_status]
    split
    next hq => simp [hq, hp]
    next => rfl
  have hwaiting : ∀ q, (s.bufferCondvar.wake p).status q = .waiting →
      s.bufferCondvar.status q = .waiting := by
    intro q hq
    rw [WaitSet.wake_status] at hq
    split at hq
    · cases hq
    · exact hq
  exact ⟨hdw.trans (hne _).symm, hrw.trans (hne _).symm, fun hw ↦ hd (hwaiting _ hw),
    fun hw ↦ hr (hwaiting _ hw)⟩

/-! ### Runs -/

/-- The invariants that hold whoever sets the flag, and whenever. -/
structure Coordinated (s : OggStream) : Prop where
  bounded : s.reader.Bounded s.buffer
  locked : Locked s
  noLostWakeup : NoLostWakeup s

theorem Coordinated.step (hs : Coordinated s) {a : StreamAction} (h : s.step a = some t) :
    Coordinated t := by
  cases a with
  | decoder =>
    have hmove := decoderMove_of_step h
    obtain ⟨hr, -, -, -, data, hbuffer, -⟩ := hmove.frame
    refine ⟨?_, hs.locked.decoder_move hmove, hs.noLostWakeup.decoder_move hmove⟩
    rw [hr, hbuffer]
    exact hs.bounded.append data
  | reader =>
    have hmove := readerMove_of_step h
    exact ⟨bounded_reader_move hs.bounded hmove, hs.locked.reader_move hs.bounded hmove,
      hs.noLostWakeup.reader_move hs.bounded hmove⟩
  | wake p =>
    have hwake := hs.noLostWakeup.wake h
    have hlocked := hs.locked.wake h
    obtain ⟨-, rfl⟩ := step_wake_cases h
    exact ⟨hs.bounded, hlocked, hwake⟩
  | setEndOfFile =>
    cases h
    obtain ⟨hbounded, ⟨hd, hr⟩, hdw, hrw, hdn, hrn⟩ := hs
    exact ⟨hbounded, ⟨hd, hr⟩, hdw, hrw, hdn, hrn⟩

theorem coordinated_of_run {as : List StreamAction}
    (hrun : machine.run (start file bufs) as = some s) : Coordinated s :=
  machine.run_invariant (I := fun _ s ↦ Coordinated s)
    ⟨(lossless_start file bufs).reader.bounded, locked_start file bufs,
      noLostWakeup_start file bufs⟩
    (fun _ _ _ _ _ hs h ↦ hs.step h) hrun

/-- The invariants of the queue together. -/
structure Synchronised (file : OggFile) (bufs : List (List Int16)) (s : OggStream) : Prop where
  lossless : Lossless file bufs s
  locked : Locked s
  noLostWakeup : NoLostWakeup s

theorem Synchronised.step (hs : Synchronised file bufs s) {a : StreamAction}
    (ha : a ≠ .setEndOfFile) (h : s.step a = some t) : Synchronised file bufs t := by
  have hc : Coordinated t :=
    Coordinated.step ⟨hs.lossless.reader.bounded, hs.locked, hs.noLostWakeup⟩ h
  exact ⟨hs.lossless.step ha h, hc.locked, hc.noLostWakeup⟩

/-- **The synchronisation of the queue**: over every run, a critical section excludes the other
side, and no wake-up is lost. -/
theorem synchronised_of_run {as : List StreamAction}
    (hrun : machine.run (start file bufs) as = some s) (has : .setEndOfFile ∉ as) :
    Synchronised file bufs s :=
  have hc := coordinated_of_run hrun
  ⟨lossless_of_run hrun has, hc.locked, hc.noLostWakeup⟩

/-! ### The two sides never block each other -/

/-- The decoding thread is in `condvar.wait`, and no notification is pending for it. -/
def DecoderBlocked (s : OggStream) : Prop :=
  s.decoder.IsWaiting ∧ s.bufferCondvar.status .decoder ≠ .notified

/-- The reader is in `buffer_condvar.wait`, and no notification is pending for it. -/
def ReaderBlocked (s : OggStream) : Prop :=
  s.reader.IsWaiting ∧ s.bufferCondvar.status .reader ≠ .notified

theorem NoLostWakeup.decoder_waiting (hs : NoLostWakeup s) (h : s.DecoderBlocked) :
    s.bufferCondvar.status .decoder = .waiting :=
  WaitStatus.eq_waiting (hs.decoderWaits.1 h.1) h.2

theorem NoLostWakeup.reader_waiting (hs : NoLostWakeup s) (h : s.ReaderBlocked) :
    s.bufferCondvar.status .reader = .waiting :=
  WaitStatus.eq_waiting (hs.readerWaits.1 h.1) h.2

/-- **No mutual block.** Over every run, with the flag set or not: a blocked thread has a full
queue or a reader about to notify, a blocked reader has an empty queue or a thread about to
notify, and they are never both blocked. -/
theorem no_mutual_block {as : List StreamAction}
    (hrun : machine.run (start file bufs) as = some s) :
    (s.DecoderBlocked → bufferLimit ≤ s.buffer.length ∨ s.reader.BeforeNotify) ∧
      (s.ReaderBlocked → s.buffer = [] ∨ s.decoder = .notify) ∧
      ¬ (s.DecoderBlocked ∧ s.ReaderBlocked) := by
  have hs := (coordinated_of_run hrun).noLostWakeup
  have hd : s.DecoderBlocked → bufferLimit ≤ s.buffer.length ∨ s.reader.BeforeNotify :=
    fun h ↦ hs.decoder (hs.decoder_waiting h)
  have hr : s.ReaderBlocked → s.buffer = [] ∨ s.decoder = .notify :=
    fun h ↦ hs.reader (hs.reader_waiting h)
  refine ⟨hd, hr, fun ⟨hdb, hrb⟩ ↦ ?_⟩
  -- Each wait keeps the pc away from the notification the other side could still hope for.
  have hnotify : s.decoder ≠ .notify := by
    intro h
    have hwait := hdb.1
    rw [h] at hwait
    exact hwait
  have hbefore : ¬ s.reader.BeforeNotify := by
    intro h
    have hwait := hrb.1
    cases hreader : s.reader <;> rw [hreader] at h hwait <;> first | exact h | exact hwait
  have hfull := (hd hdb).resolve_right hbefore
  rw [(hr hrb).resolve_right hnotify] at hfull
  exact absurd hfull (by decide)

/-- A reader that found the queue empty is blocked, and the thread is not. -/
theorem no_mutual_block_emptyQueue :
    ∃ s, machine.run (start ⟨true, true, [[5]], false⟩ [[0]]) (List.replicate 4 .reader) = some s ∧
      s.ReaderBlocked ∧ ¬ s.DecoderBlocked := by
  have hblock (s : OggStream) (hs : machine.run (start ⟨true, true, [[5]], false⟩ [[0]])
      (List.replicate 4 .reader) = some s) (hr : s.ReaderBlocked) : ¬ s.DecoderBlocked :=
    fun hd ↦ (no_mutual_block hs).2.2 ⟨hd, hr⟩
  have hr : ∀ s, machine.run (start ⟨true, true, [[5]], false⟩ [[0]])
      (List.replicate 4 .reader) = some s → s.ReaderBlocked := by
    rintro s hs
    cases hs
    exact ⟨trivial, by decide⟩
  exact ⟨_, rfl, hr _ rfl, hblock _ rfl (hr _ rfl)⟩

end OggStream

end Esp32A2dpPlayer
