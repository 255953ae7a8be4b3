import Mathlib.Algebra.GroupWithZero.Nat
import Esp32A2dpPlayer.Audio.Wakeups

/-!
# The end of the stream

`read` waits while the queue is empty and the end-of-file flag is not set, and the thread ends
without setting the flag and without a notification. So a reader that asks for more than the
thread supplies waits for ever, however the thread ends, and one that does not is served
(`not_stuck_iff`).

The first half is a flow balance: what was supplied is what was returned, is in progress, or is
queued. For the second half the two sides run until neither can move. A measure shows that they
get there, and the invariants of the lock and of the wake-ups leave only one place where they
can stop.
-/

namespace Esp32A2dpPlayer

/-- The samples the thread gets to push: none when it cannot open the file or its decoder. -/
def OggFile.supply (file : OggFile) : List Int16 :=
  if file.opens = true ∧ file.decodes = true then file.packets.flatten else []

theorem OggFile.supply_eq {file : OggFile} (h : file.opens = true ∧ file.decodes = true) :
    file.supply = file.packets.flatten := if_pos h

/-- How many samples the read calls ask for. -/
def requested (bufs : List (List Int16)) : ℕ := (bufs.map List.length).sum

/-- How far the thread has come with the supply of `file`. -/
def DecoderPc.Supplied (file : OggFile) (pushed : List (List Int16)) : DecoderPc → Prop
  | .openFile => pushed = []
  | .newDecoder => pushed = [] ∧ file.opens = true
  | .terminated _ => pushed.flatten = file.supply
  | _ => file.opens = true ∧ file.decodes = true

/-- How far the thread is from its end, packets to come aside, if its status on the condition
variable is `w`. A wake-up puts it back. -/
def DecoderPc.rank (w : WaitStatus) : DecoderPc → ℕ
  | .openFile => 10
  | .newDecoder => 9
  | .nextPacket => 8
  | .lockCheck _ => 7
  | .check _ => 6
  | .waiting _ => if w = .notified then 7 else 4
  | .lockPush _ => 5
  | .push _ => 4
  | .notify => 20
  | .terminated _ => 0

theorem DecoderPc.rank_le (d : DecoderPc) (w w' : WaitStatus) : d.rank w ≤ d.rank w' + 3 := by
  cases d with
  | waiting packet =>
    simp only [rank]
    split <;> split <;> omega
  | _ => exact Nat.le_add_right ..

namespace ReaderPc

/-- How far the reader is from its next sample or the end of its call, if its status on the
condition variable is `w`. A wake-up puts it back. -/
def rank (w : WaitStatus) : ReaderPc → ℕ
  | .idle => 0
  | .loopHead _ => 8
  | .lockBuffer _ _ => 7
  | .checkEmpty _ _ => 5
  | .waiting _ => if w = .notified then 7 else 3
  | .readEos _ => 6
  | .drain _ _ => 4
  | .copy _ _ => 14
  | .notify _ => 13
  | .panicked => 0

theorem rank_le (r : ReaderPc) (w w' : WaitStatus) : r.rank w ≤ r.rank w' + 4 := by
  cases r with
  | waiting f =>
    simp only [rank]
    split <;> split <;> omega
  | _ => exact Nat.le_add_right ..

/-- The samples the read in progress has still to drain. -/
def toDrain (r : ReaderPc) : ℕ :=
  r.frame.elim 0 fun f ↦ f.buf.length - f.copyCount - r.drained.length

end ReaderPc

namespace OggStream

variable {file : OggFile} {bufs : List (List Int16)} {s t : OggStream}

/-- A reader left alone: the thread has ended, the queue is empty, and a `read` with a non-empty
`buf` waits un-notified. -/
def Stuck (s : OggStream) : Prop :=
  ∃ r f, s.decoder = .terminated r ∧ s.buffer = [] ∧ s.reader = .waiting f ∧ f.buf ≠ [] ∧
    s.bufferCondvar.status .reader = .waiting

/-! ### What the thread supplies -/

/-- The thread works on `file`, and has pushed all of its supply when it ends. -/
structure Supplied (file : OggFile) (s : OggStream) : Prop where
  opens : s.file.opens = file.opens
  decodes : s.file.decodes = file.decodes
  decoder : s.decoder.Supplied file s.pushed

theorem supplied_start (file : OggFile) (bufs : List (List Int16)) :
    Supplied file (start file bufs) :=
  ⟨rfl, rfl, rfl⟩

theorem Supplied.decoder_move (hs : Supplied file s) (hl : Lossless file bufs s)
    (h : DecoderMove s t) : Supplied file t := by
  obtain ⟨hopens, hdecodes, hd⟩ := hs
  cases h with
  | opened h ho =>
    rw [h] at hd
    exact ⟨hopens, hdecodes, hd, hopens ▸ ho⟩
  | notOpened h ho =>
    rw [h] at hd
    have hd : s.pushed = [] := hd
    exact ⟨hopens, hdecodes, by simp [DecoderPc.Supplied, OggFile.supply, hd, ← hopens, ho]⟩
  | decodes h hdec =>
    rw [h] at hd
    exact ⟨hopens, hdecodes, hd.2, hdecodes ▸ hdec⟩
  | decodesNot h hdec =>
    rw [h] at hd
    obtain ⟨hd, -⟩ := hd
    exact ⟨hopens, hdecodes, by simp [DecoderPc.Supplied, OggFile.supply, hd, ← hdecodes, hdec]⟩
  | ended h hp =>
    rw [h] at hd
    have hpackets := hl.packets
    simp only [h, hp, DecoderPc.inHand, Option.toList_none, List.append_nil] at hpackets
    exact ⟨hopens, hdecodes, by rw [DecoderPc.Supplied, OggFile.supply_eq hd, hpackets]⟩
  | packet h _ | lockCheck h _ | wait h _ | room h _ | woken h _ _ | lockPush h _ | push h
  | notify h =>
    rw [h] at hd
    exact ⟨hopens, hdecodes, hd⟩

theorem Supplied.step (hs : Supplied file s) (hl : Lossless file bufs s) {a : StreamAction}
    (h : s.step a = some t) : Supplied file t := by
  cases a with
  | decoder => exact hs.decoder_move hl (decoderMove_of_step h)
  | reader =>
    obtain ⟨hdecoder, hfile, hpushed, -⟩ := (readerMove_of_step h).frame
    exact ⟨hfile ▸ hs.opens, hfile ▸ hs.decodes, by rw [hdecoder, hpushed]; exact hs.decoder⟩
  | wake p =>
    obtain ⟨-, rfl⟩ := step_wake_cases h
    exact ⟨hs.opens, hs.decodes, hs.decoder⟩
  | setEndOfFile =>
    cases h
    exact ⟨hs.opens, hs.decodes, hs.decoder⟩

theorem Supplied.length_pushed_le (hs : Supplied file s) (hl : Lossless file bufs s) :
    s.pushed.flatten.length ≤ file.supply.length := by
  have hrest (h : file.opens = true ∧ file.decodes = true) :
      s.pushed.flatten.length ≤ file.supply.length := by
    rw [OggFile.supply_eq h, ← hl.packets]
    simp
  have hd := hs.decoder
  cases h : s.decoder with
  | openFile =>
    rw [h] at hd
    have hd : s.pushed = [] := hd
    simp [hd]
  | newDecoder =>
    rw [h] at hd
    simp [hd.1]
  | terminated r =>
    rw [h] at hd
    exact Nat.le_of_eq (congrArg List.length hd)
  | _ =>
    rw [h] at hd
    exact hrest hd

/-! ### What the reads ask for -/

theorem Lossless.length_returnedSamples (hs : Lossless file bufs s) :
    s.returnedSamples.length = (s.returned.map ReadResult.n).sum := by
  rw [returnedSamples, List.length_flatMap]
  refine congrArg _ (List.map_congr_left fun r hr ↦ ?_)
  rw [List.length_take, hs.full r hr, Nat.min_self]

/-- What was asked for is returned, asked for by the read in progress, or to come. -/
theorem Lossless.requested_eq (hs : Lossless file bufs s) :
    requested bufs = s.returnedSamples.length +
      s.reader.frame.elim 0 (fun f ↦ f.buf.length) + requested s.bufs := by
  rw [requested, ← hs.requests, hs.length_returnedSamples, requested]
  cases s.reader.frame <;> simp [Nat.add_assoc]

/-- A stuck reader has asked for more than there was. -/
theorem Lossless.supply_lt_of_stuck (hs : Lossless file bufs s) (hp : Supplied file s)
    (h : Stuck s) : file.supply.length < requested bufs := by
  obtain ⟨r, f, hd, hb, hr, -, -⟩ := h
  have hcount : f.copyCount < f.buf.length := by simpa [hr, ReaderPc.Sound] using hs.reader
  have hpushed : s.pushed.flatten = file.supply := by
    simpa [hd, DecoderPc.Supplied] using hp.decoder
  have hsupply : s.returnedSamples.length + f.copyCount = file.supply.length := by
    have h := congrArg List.length (hpushed ▸ hs.samples)
    simp only [hr, hb, ReaderPc.inProgress, ReaderPc.frame, ReaderPc.drained, Option.elim,
      ReadFrame.copied, List.append_nil, List.length_append, List.length_take] at h
    omega
  have hrequested := hs.requested_eq
  simp only [hr, ReaderPc.frame, Option.elim] at hrequested
  omega

/-! ### Both sides run until neither can move -/

/-- What the two sides have left to do. A packet and a drained sample are worth more than the
wake-up that they cause. -/
def measure (s : OggStream) : ℕ :=
  30 * (s.decoder.inHand.toList.length + s.file.packets.length) +
    s.decoder.rank (s.bufferCondvar.status .decoder) +
    20 * (s.reader.toDrain + requested s.bufs) + 10 * s.bufs.length +
    s.reader.rank (s.bufferCondvar.status .reader)

theorem measure_decoder_move (h : DecoderMove s t) : measure t < measure s := by
  cases h with
  | notify h =>
    have hr := s.reader.rank_le (s.bufferCondvar.notifyAll.status .reader)
      (s.bufferCondvar.status .reader)
    simp only [measure, h, DecoderPc.inHand, DecoderPc.rank]
    omega
  | wait h hb =>
    simp [measure, h, DecoderPc.inHand, DecoderPc.rank, WaitSet.register_status]
  | woken h hl hw =>
    simp [measure, h, DecoderPc.inHand, DecoderPc.rank, hw, WaitSet.remove_status]
  | packet h hp | ended h hp =>
    simp only [measure, h, hp, DecoderPc.inHand, DecoderPc.rank, Option.toList_none,
      Option.toList_some, List.length_cons, List.length_nil]
    omega
  | opened h _ | notOpened h _ | decodes h _ | decodesNot h _ | lockCheck h _ | room h _
  | lockPush h _ | push h =>
    simp only [measure, h, DecoderPc.inHand, DecoderPc.rank, Option.toList_none,
      Option.toList_some, List.length_cons, List.length_nil]
    omega

theorem measure_reader_move (h : ReaderMove s t) : measure t < measure s := by
  cases h with
  | notify h =>
    have hd := s.decoder.rank_le (s.bufferCondvar.notifyAll.status .decoder)
      (s.bufferCondvar.status .decoder)
    simp only [measure, h, ReaderPc.toDrain, ReaderPc.frame, ReaderPc.drained, ReaderPc.rank]
    omega
  | wait h hb =>
    simp [measure, h, ReaderPc.toDrain, ReaderPc.frame, ReaderPc.drained, ReaderPc.rank,
      WaitSet.register_status]
  | woken h hl hw =>
    simp [measure, h, ReaderPc.toDrain, ReaderPc.frame, ReaderPc.drained, ReaderPc.rank, hw,
      WaitSet.remove_status]
  | call h hb =>
    simp only [measure, h, hb, ReaderPc.toDrain, ReaderPc.frame, ReaderPc.drained, ReaderPc.rank,
      requested, Option.elim, List.length_nil, List.map_cons, List.sum_cons, List.length_cons]
    omega
  | drain h hn hpos =>
    simp only [measure, h, ReaderPc.toDrain, ReaderPc.frame, ReaderPc.drained, ReaderPc.rank,
      Option.elim, List.length_nil, List.length_take]
    omega
  | copy h hc =>
    simp only [measure, h, ReaderPc.toDrain, ReaderPc.frame, ReaderPc.drained, ReaderPc.rank,
      Option.elim, List.length_nil, length_cloneFromSlice hc]
    omega
  | readEos h _ | return_ h _ | lockBuffer h _ | nonempty h _ | readEosAgain h | endOfStream h _
  | assertFails h _ | sliceFails h _ =>
    simp only [measure, OggStream.return_, h, ReaderPc.toDrain, ReaderPc.frame, ReaderPc.drained,
      ReaderPc.rank, Option.elim]
    omega

/-! ### Where they stop -/

/-- A side that cannot move does not hold the lock. -/
theorem Locked.lock_eq_none (hs : Locked s) (hd : s.decoderStep = none)
    (hr : s.readerStep = none) : s.lock = none := by
  cases hl : s.lock with
  | none => rfl
  | some p =>
    cases p with
    | decoder =>
      have hpc := hs.decoder.1 hl
      rw [decoderStep] at hd
      cases h : s.decoder with
      | check packet =>
        simp only [h] at hd
        split at hd <;> cases hd
      | push packet => simp [h] at hd
      | notify => simp [h] at hd
      | _ => simp [h, DecoderPc.HoldsLock] at hpc
    | reader =>
      have hpc := hs.reader.1 hl
      rw [readerStep] at hr
      cases h : s.reader with
      | checkEmpty f eos =>
        simp only [h] at hr
        split at hr <;> cases hr
      | readEos f => simp [h] at hr
      | drain f eos =>
        simp only [h] at hr
        split at hr
        · cases hr
        · split at hr <;> cases hr
      | _ => simp [h, ReaderPc.HoldsLock] at hpc

theorem decoder_stopped (hl : s.lock = none) (hd : s.decoderStep = none) :
    (∃ r, s.decoder = .terminated r) ∨
      s.decoder.IsWaiting ∧ s.bufferCondvar.status .decoder ≠ .notified := by
  rw [decoderStep] at hd
  cases h : s.decoder with
  | terminated r => exact .inl ⟨r, rfl⟩
  | waiting packet =>
    refine .inr ⟨trivial, fun hw ↦ ?_⟩
    simp [h, hl, hw] at hd
  | openFile | newDecoder | check =>
    simp only [h] at hd
    split at hd <;> cases hd
  | nextPacket =>
    simp only [h] at hd
    split at hd
    · cases hd
    · split at hd <;> cases hd
  | lockCheck packet | lockPush packet | push packet | notify => simp [h, hl] at hd

theorem reader_stopped (hl : s.lock = none) (hr : s.readerStep = none)
    (hsound : s.reader.Sound s.buffer) :
    (s.reader = .idle ∧ s.bufs = []) ∨
      ∃ f, s.reader = .waiting f ∧ s.bufferCondvar.status .reader ≠ .notified := by
  rw [readerStep] at hr
  cases h : s.reader with
  | idle =>
    refine .inl ⟨rfl, ?_⟩
    simp only [h] at hr
    split at hr
    · cases hr
    · assumption
  | waiting f =>
    refine .inr ⟨f, rfl, fun hw ↦ ?_⟩
    simp [h, hl, hw] at hr
  | loopHead f | checkEmpty f eos | copy f samples =>
    simp only [h] at hr
    split at hr <;> cases hr
  | drain f eos =>
    simp only [h] at hr
    split at hr
    · cases hr
    · split at hr <;> cases hr
  | lockBuffer f eos | readEos f | notify f => simp [h, hl] at hr
  | panicked =>
    rw [h] at hsound
    exact hsound.elim

/-- When neither side can move and the reads ask for more than there was, the reader is stuck:
of the two conditions of a wait only the reader's can hold. -/
theorem Synchronised.stuck (hs : Synchronised file bufs s) (hp : Supplied file s)
    (hd : s.decoderStep = none) (hr : s.readerStep = none)
    (hlt : file.supply.length < requested bufs) : Stuck s := by
  have hl := hs.locked.lock_eq_none hd hr
  obtain ⟨hidle, hbufs⟩ | ⟨f, hf, hwoken⟩ := reader_stopped hl hr hs.lossless.reader
  · -- Every read has returned, so all that was asked for has been pushed.
    have hrequested := hs.lossless.requested_eq
    have hsamples := congrArg List.length hs.lossless.samples
    have hpushed := hp.length_pushed_le hs.lossless
    simp only [hidle, hbufs, ReaderPc.frame, requested, Option.elim, List.map_nil,
      List.sum_nil] at hrequested
    simp only [List.length_append] at hsamples
    rw [requested] at hlt
    omega
  · have hcount : f.copyCount < f.buf.length := by
      simpa [hf, ReaderPc.Sound] using hs.lossless.reader
    have hbuf : f.buf ≠ [] := List.length_pos_iff.1 (by omega)
    have hwaits : s.bufferCondvar.status .reader ≠ .idle :=
      hs.noLostWakeup.readerWaits.1 (by rw [hf]; trivial)
    have hreader : s.bufferCondvar.status .reader = .waiting := by
      cases h : s.bufferCondvar.status .reader <;> simp_all
    obtain ⟨r, hterm⟩ | ⟨hwait, hdwoken⟩ := decoder_stopped hl hd
    · have hempty : s.buffer = [] :=
        (hs.noLostWakeup.reader hreader).resolve_right (by simp [hterm])
      exact ⟨r, f, hterm, hempty, hf, hbuf, hreader⟩
    · have hempty : s.buffer = [] := by
        refine (hs.noLostWakeup.reader hreader).resolve_right fun hnotify ↦ ?_
        rw [hnotify] at hwait
        exact hwait
      have hdwaits := hs.noLostWakeup.decoderWaits.1 hwait
      have hdecoder : s.bufferCondvar.status .decoder = .waiting := by
        cases h : s.bufferCondvar.status .decoder <;> simp_all
      obtain hfull | hbefore := hs.noLostWakeup.decoder hdecoder
      · simp [hempty, bufferLimit] at hfull
      · rw [hf] at hbefore
        exact hbefore.elim

/-! ### When the reader is served -/

theorem supplied_of_run {as : List StreamAction}
    (hrun : machine.run (start file bufs) as = some s) (has : .setEndOfFile ∉ as) :
    Synchronised file bufs s ∧ Supplied file s :=
  machine.run_invariant_of_allSteps
    (I := fun _ s ↦ Synchronised file bufs s ∧ Supplied file s)
    ⟨@synchronised_of_run file bufs _ [] rfl (by simp), supplied_start file bufs⟩
    (fun _ _ _ _ _ hs ha h ↦ ⟨hs.1.step ha h, hs.2.step hs.1.lossless h⟩)
    (machine.allSteps_of_not_mem has) hrun

/-- **When no reader is left behind.** Over every run in which nobody sets the end-of-file flag,
as nobody does, no state has a reader stuck after the end of the thread exactly if the reads do
not ask for more samples than the thread supplies. -/
theorem not_stuck_iff (file : OggFile) (bufs : List (List Int16)) :
    (∀ as s, .setEndOfFile ∉ as → machine.run (start file bufs) as = some s → ¬ Stuck s) ↔
      requested bufs ≤ file.supply.length := by
  constructor
  · intro h
    by_contra hlt
    obtain ⟨as, t, has, hrun, -, hquiet⟩ := machine.exists_quiescent
      (A := fun a ↦ a = .decoder ∨ a = .reader) (I := fun _ ↦ True) measure
      (fun _ _ _ _ _ _ ↦ trivial)
      (by
        rintro s a t (rfl | rfl) - hstep
        · exact measure_decoder_move (decoderMove_of_step hstep)
        · exact measure_reader_move (readerMove_of_step hstep))
      (s := start file bufs) trivial
    have hflag : .setEndOfFile ∉ as := fun hmem ↦ by simpa using has _ hmem
    obtain ⟨hs, hp⟩ := supplied_of_run hrun hflag
    exact h as t hflag hrun (hs.stuck hp (hquiet .decoder (.inl rfl))
      (hquiet .reader (.inr rfl)) (by omega))
  · intro hle as s has hrun hstuck
    obtain ⟨hs, hp⟩ := supplied_of_run hrun has
    have hlt := hs.lossless.supply_lt_of_stuck hp hstuck
    omega

/-- `File::open` fails while a read of one sample waits. -/
theorem stuck_of_notOpened :
    ∃ as s, .setEndOfFile ∉ as ∧
      machine.run (start ⟨false, true, [], false⟩ [[0]]) as = some s ∧
      s.decoder = .terminated (.error .file) ∧ Stuck s :=
  ⟨[.reader, .reader, .reader, .reader, .decoder], _, by simp, rfl, rfl,
    .error .file, ⟨[0], 0⟩, rfl, rfl, rfl, by simp, rfl⟩

end OggStream

end Esp32A2dpPlayer
