import Esp32A2dpPlayer.Audio.OggStream

/-!
# The queue of samples loses nothing

As long as nobody sets the end-of-file flag, what the reads have returned, what the read in
progress has taken, and what is still queued, in this order, are the packets pushed so far
(`samples_fifo`). The lock plays no part in it: each move of either side keeps the equation.
-/

namespace Esp32A2dpPlayer

/-- The packet the thread has taken from the decoder and not pushed yet. -/
def DecoderPc.inHand : DecoderPc → Option (List Int16)
  | .lockCheck packet => some packet
  | .check packet => some packet
  | .waiting packet => some packet
  | .lockPush packet => some packet
  | .push packet => some packet
  | .openFile => none
  | .newDecoder => none
  | .nextPacket => none
  | .notify => none
  | .terminated _ => none

/-- What a read has copied to its `buf`. -/
def ReadFrame.copied (f : ReadFrame) : List Int16 := f.buf.take f.copyCount

namespace ReaderPc

/-- The locals of the read in progress. -/
def frame : ReaderPc → Option ReadFrame
  | .idle => none
  | .loopHead f => some f
  | .lockBuffer f _ => some f
  | .checkEmpty f _ => some f
  | .waiting f => some f
  | .readEos f => some f
  | .drain f _ => some f
  | .copy f _ => some f
  | .notify f => some f
  | .panicked => none

/-- The samples drained from the queue and not copied yet. -/
def drained : ReaderPc → List Int16
  | .copy _ samples => samples
  | _ => []

/-- The samples the read in progress has copied or drained. -/
def inProgress (r : ReaderPc) : List Int16 :=
  r.frame.elim [] ReadFrame.copied ++ r.drained

/-- What holds of the locals at each place of `read` while the flag is not set. -/
def Sound (buffer : List Int16) : ReaderPc → Prop
  | .idle => True
  | .loopHead f => f.copyCount ≤ f.buf.length
  | .lockBuffer f eos => f.copyCount < f.buf.length ∧ eos = false
  | .checkEmpty f eos => f.copyCount < f.buf.length ∧ eos = false
  | .waiting f => f.copyCount < f.buf.length
  | .readEos f => f.copyCount < f.buf.length
  | .drain f eos => f.copyCount < f.buf.length ∧ eos = false ∧ buffer ≠ []
  | .copy f samples => f.copyCount + samples.length ≤ f.buf.length
  | .notify f => f.copyCount ≤ f.buf.length
  | .panicked => False

/-- More samples in the queue do no harm. -/
theorem Sound.append {buffer : List Int16} {r : ReaderPc} (h : r.Sound buffer)
    (data : List Int16) : r.Sound (buffer ++ data) := by
  cases r with
  | drain f eos =>
    obtain ⟨hc, heos, hb⟩ := h
    exact ⟨hc, heos, by simp [hb]⟩
  | _ => exact h

end ReaderPc

namespace OggStream

/-- `buf[..n]` of the reads that returned `Ok(n)`. -/
def returnedSamples (s : OggStream) : List Int16 :=
  s.returned.flatMap fun r ↦ r.buf.take r.n

theorem length_cloneFromSlice {buf samples : List Int16} {start : ℕ}
    (h : start + samples.length ≤ buf.length) :
    (cloneFromSlice buf start samples).length = buf.length := by
  rw [cloneFromSlice]
  simp only [List.length_append, List.length_take, List.length_drop]
  omega

/-- What is copied joins what was copied before. -/
theorem take_cloneFromSlice {buf samples : List Int16} {start : ℕ}
    (h : start + samples.length ≤ buf.length) :
    (cloneFromSlice buf start samples).take (start + samples.length) =
      buf.take start ++ samples := by
  have hlen : (buf.take start ++ samples).length = start + samples.length := by
    rw [List.length_append, List.length_take]
    omega
  rw [cloneFromSlice, ← hlen, List.take_left]

/-! ### The invariant -/

/-- Nothing is lost between the file and the reads, and the reads get what they asked for. -/
structure Lossless (file : OggFile) (bufs : List (List Int16)) (s : OggStream) : Prop where
  endOfFile : s.endOfFile = false
  samples : s.returnedSamples ++ s.reader.inProgress ++ s.buffer = s.pushed.flatten
  packets : s.pushed ++ s.decoder.inHand.toList ++ s.file.packets = file.packets
  full : ∀ r ∈ s.returned, r.n = r.buf.length
  requests : s.returned.map ReadResult.n ++ s.reader.frame.toList.map (fun f ↦ f.buf.length) ++
    s.bufs.map List.length = bufs.map List.length
  reader : s.reader.Sound s.buffer

variable {file : OggFile} {bufs : List (List Int16)} {s t : OggStream}

theorem lossless_start (file : OggFile) (bufs : List (List Int16)) :
    Lossless file bufs (start file bufs) where
  endOfFile := rfl
  samples := rfl
  packets := rfl
  full := by simp [start]
  requests := rfl
  reader := trivial

/-- A packet goes from the file to the thread, and from the thread to the queue. -/
theorem DecoderMove.packets (h : DecoderMove s t) :
    t.pushed ++ t.decoder.inHand.toList ++ t.file.packets =
      s.pushed ++ s.decoder.inHand.toList ++ s.file.packets := by
  cases h with
  | packet h hp => simp [h, hp, DecoderPc.inHand]
  | _ => simp_all [DecoderPc.inHand]

theorem Lossless.decoder_move (hs : Lossless file bufs s) (h : DecoderMove s t) :
    Lossless file bufs t := by
  obtain ⟨hr, hbufs, hret, heof, data, hbuffer, hpushed⟩ := h.frame
  refine ⟨by rw [heof, hs.endOfFile], ?_, by rw [h.packets, hs.packets], ?_, ?_, ?_⟩
  · rw [returnedSamples, hret, hr, hbuffer, hpushed, ← hs.samples, returnedSamples]
    simp only [List.append_assoc]
  · rw [hret]
    exact hs.full
  · rw [hret, hr, hbufs, hs.requests]
  · rw [hr, hbuffer]
    exact hs.reader.append data

/-- Returning with a full `buf`. -/
theorem Lossless.return_ (hs : Lossless file bufs s) {f : ReadFrame}
    (hr : s.reader = .loopHead f) (hf : f.copyCount = f.buf.length) :
    Lossless file bufs (s.return_ f f.copyCount) where
  endOfFile := hs.endOfFile
  samples := by
    have h := hs.samples
    simp only [hr, ReaderPc.inProgress, ReaderPc.frame, ReaderPc.drained, Option.elim,
      ReadFrame.copied, returnedSamples] at h
    simpa [OggStream.return_, returnedSamples, ReaderPc.inProgress, ReaderPc.frame,
      ReaderPc.drained] using h
  packets := hs.packets
  full := by
    intro r hmem
    rcases List.mem_append.1 hmem with hmem | hmem
    · exact hs.full r hmem
    · cases List.mem_singleton.1 hmem
      exact hf
  requests := by
    have h := hs.requests
    rw [hr] at h
    simpa [OggStream.return_, ReaderPc.frame, hf] using h
  reader := trivial

theorem Lossless.reader_move (hs : Lossless file bufs s) (h : ReaderMove s t) :
    Lossless file bufs t := by
  have hsound := hs.reader
  have hsamples := hs.samples
  have hrequests := hs.requests
  cases h with
  | call h hb =>
    rw [h] at hsamples hrequests
    rw [hb] at hrequests
    exact ⟨hs.endOfFile, hsamples, hs.packets, hs.full, by simpa [ReaderPc.frame] using hrequests,
      Nat.zero_le _⟩
  | readEos h hc =>
    rw [h] at hsamples hrequests
    exact ⟨hs.endOfFile, hsamples, hs.packets, hs.full, hrequests, hc, hs.endOfFile⟩
  | return_ h hc =>
    rw [h] at hsound
    exact hs.return_ h (Nat.le_antisymm hsound hc)
  | lockBuffer h hl =>
    rw [h] at hsound hsamples hrequests
    exact ⟨hs.endOfFile, hsamples, hs.packets, hs.full, hrequests, hsound⟩
  | wait h hb =>
    rw [h] at hsound hsamples hrequests
    exact ⟨hs.endOfFile, hsamples, hs.packets, hs.full, hrequests, hsound.1⟩
  | nonempty h hb =>
    rw [h] at hsound hsamples hrequests
    obtain ⟨hc, rfl⟩ := hsound
    exact ⟨hs.endOfFile, hsamples, hs.packets, hs.full, hrequests, hc, rfl,
      hb.resolve_right Bool.false_ne_true⟩
  | woken h hl hw =>
    rw [h] at hsound hsamples hrequests
    exact ⟨hs.endOfFile, hsamples, hs.packets, hs.full, hrequests, hsound⟩
  | readEosAgain h =>
    rw [h] at hsound hsamples hrequests
    exact ⟨hs.endOfFile, hsamples, hs.packets, hs.full, hrequests, hsound, hs.endOfFile⟩
  | endOfStream h hb =>
    rw [h] at hsound
    exact absurd hsound.2.1 (by simp)
  | drain h hn hpos =>
    rw [h] at hsamples hrequests
    refine ⟨hs.endOfFile, ?_, hs.packets, hs.full, hrequests, ?_⟩
    · rw [← hsamples]
      simp [returnedSamples, ReaderPc.inProgress, ReaderPc.frame, ReaderPc.drained]
    · simp only [ReaderPc.Sound, List.length_take]
      omega
  | assertFails h _ hn =>
    -- A buf with room left and a queue with samples in it have a positive minimum.
    rw [h] at hsound
    obtain ⟨hc, -, hb⟩ := hsound
    have hb : 0 < s.buffer.length := List.length_pos_iff.2 hb
    omega
  | copy h hc =>
    rw [h] at hsamples hrequests
    refine ⟨hs.endOfFile, ?_, hs.packets, hs.full, ?_, ?_⟩
    · rw [← hsamples]
      simp [returnedSamples, ReaderPc.inProgress, ReaderPc.frame, ReaderPc.drained,
        ReadFrame.copied, take_cloneFromSlice hc]
    · rw [← hrequests]
      simp [ReaderPc.frame, length_cloneFromSlice hc]
    · simp only [ReaderPc.Sound, length_cloneFromSlice hc]
      exact hc
  | sliceFails h hc =>
    rw [h] at hsound
    exact absurd hsound (Nat.not_le.2 hc)
  | notify h =>
    rw [h] at hsound hsamples hrequests
    exact ⟨hs.endOfFile, hsamples, hs.packets, hs.full, hrequests, hsound⟩

theorem Lossless.step (hs : Lossless file bufs s) {a : StreamAction} (ha : a ≠ .setEndOfFile)
    (h : s.step a = some t) : Lossless file bufs t := by
  cases a with
  | decoder => exact hs.decoder_move (decoderMove_of_step h)
  | reader => exact hs.reader_move (readerMove_of_step h)
  | wake p =>
    obtain ⟨-, rfl⟩ := step_wake_cases h
    exact ⟨hs.endOfFile, hs.samples, hs.packets, hs.full, hs.requests, hs.reader⟩
  | setEndOfFile => exact absurd rfl ha

/-! ### Runs -/

/-- The invariant holds after every run in which nobody sets the flag. -/
theorem lossless_of_run {as : List StreamAction}
    (hrun : machine.run (start file bufs) as = some s) (has : .setEndOfFile ∉ as) :
    Lossless file bufs s :=
  machine.run_invariant_of_allSteps (I := fun _ s ↦ Lossless file bufs s)
    (lossless_start file bufs) (fun _ _ _ _ _ hs ha h ↦ hs.step ha h)
    (machine.allSteps_of_not_mem has) hrun

/-- **The queue is a lossless FIFO.** In every interleaving, spurious wake-ups included, what
the reads returned, what the read in progress has taken and what is queued are the packets
pushed so far, a prefix of the packets of the file. A read that returns has filled its `buf`,
and none panics. -/
theorem samples_fifo {as : List StreamAction}
    (hrun : machine.run (start file bufs) as = some s) (has : .setEndOfFile ∉ as) :
    s.returnedSamples ++ s.reader.inProgress ++ s.buffer = s.pushed.flatten ∧
      s.pushed <+: file.packets ∧
      (∀ r ∈ s.returned, r.n = r.buf.length) ∧
      s.returned.map ReadResult.n <+: bufs.map List.length ∧
      s.reader ≠ .panicked := by
  have hs := lossless_of_run hrun has
  refine ⟨hs.samples, ?_, hs.full, ?_, ?_⟩
  · rw [← hs.packets, List.append_assoc]
    exact List.prefix_append ..
  · rw [← hs.requests, List.append_assoc]
    exact List.prefix_append ..
  · intro hr
    have h := hs.reader
    rw [hr] at h
    exact h

/-- One packet of two samples; the first read waits, is woken for nothing and waits again, and
the second has drained the other sample. -/
def splitPacketRun : List StreamAction :=
  List.replicate 4 .reader ++ [.wake .reader] ++ List.replicate 3 .reader ++
    List.replicate 8 .decoder ++ List.replicate 12 .reader

theorem samples_fifo_splitPacket :
    ∃ s, machine.run (start ⟨true, true, [[5, 6]], false⟩ [[0], [0, 0]]) splitPacketRun = some s ∧
      s.returned = [⟨[5], 1⟩] ∧ s.reader.inProgress = [6] ∧
      s.returnedSamples ++ s.reader.inProgress ++ s.buffer = s.pushed.flatten := by
  have hfifo (s : OggStream)
      (hs : machine.run (start ⟨true, true, [[5, 6]], false⟩ [[0], [0, 0]]) splitPacketRun =
        some s) : s.returnedSamples ++ s.reader.inProgress ++ s.buffer = s.pushed.flatten :=
    (samples_fifo hs (by simp [splitPacketRun])).1
  exact ⟨_, rfl, rfl, rfl, hfifo _ rfl⟩

end OggStream

end Esp32A2dpPlayer
