import Esp32A2dpPlayer.Audio.EndOfStream
import Esp32A2dpPlayer.Concurrency.Reaches

/-!
# What the reads get

The stream as its caller sees it, whatever the schedule. `served` is the sequential reading of a
list of samples: each `buf` in turn is filled from the front of what is left, up to the first one
that is too long. The two sides of the queue compute just that.

* `returned_eq_served`: at every moment the calls that have returned are the first of the
  sequential ones, and when neither side can move they are all of them.
* `length_run_le`: and the sides do come to a stop. A run is at most as long as the packets, the
  samples asked for and the calls allow, with five steps more for each spurious wake-up.

So what a read returns does not depend on how the thread and the reader are scheduled, only
whether the next one returns at all, and that only on how many samples there are.
-/

namespace Esp32A2dpPlayer

/-- The sequential reading of samples into one `buf` after the other. -/
def served : List Int16 → List (List Int16) → List ReadResult
  | _, [] => []
  | samples, buf :: bufs =>
    if buf.length ≤ samples.length then
      ⟨samples.take buf.length, buf.length⟩ :: served (samples.drop buf.length) bufs
    else []

theorem served_cons_of_le {samples buf : List Int16} (h : buf.length ≤ samples.length)
    (bufs : List (List Int16)) : served samples (buf :: bufs) =
      ⟨samples.take buf.length, buf.length⟩ :: served (samples.drop buf.length) bufs :=
  if_pos h

theorem served_cons_of_lt {samples buf : List Int16} (h : samples.length < buf.length)
    (bufs : List (List Int16)) : served samples (buf :: bufs) = [] :=
  if_neg (Nat.not_le.2 h)

/-- The sequential reading depends on the lengths of the `buf`s alone. -/
theorem served_congr {samples : List Int16} {bufs bufs' : List (List Int16)}
    (h : bufs.map List.length = bufs'.map List.length) :
    served samples bufs = served samples bufs' := by
  induction bufs generalizing samples bufs' with
  | nil =>
    obtain rfl := List.map_eq_nil_iff.1 h.symm
    rfl
  | cons buf bufs ih =>
    rcases bufs' with - | ⟨buf', bufs'⟩
    · cases h
    · obtain ⟨hbuf, hbufs⟩ := List.cons.inj h
      have hrest := @ih (samples.drop buf.length) bufs' hbufs
      rw [served, served, ← hbuf, hrest]

/-- Results that fill their `buf`s from the front of the samples are the first of the sequential
reading, which goes on behind them. -/
theorem served_of_full {results : List ReadResult} {samples : List Int16}
    {bufs : List (List Int16)} (hfull : ∀ r ∈ results, r.n = r.buf.length)
    (hsamples : results.flatMap (fun r ↦ r.buf.take r.n) <+: samples)
    (hbufs : results.map ReadResult.n <+: bufs.map List.length) :
    served samples bufs = results ++
      served (samples.drop (results.flatMap fun r ↦ r.buf.take r.n).length)
        (bufs.drop results.length) := by
  induction results generalizing samples bufs with
  | nil => rfl
  | cons r results ih =>
    obtain ⟨hr, hfull⟩ := List.forall_mem_cons.1 hfull
    rcases bufs with - | ⟨buf, bufs⟩
    · cases List.prefix_nil.1 hbufs
    rw [List.map_cons, List.map_cons, List.cons_prefix_cons] at hbufs
    obtain ⟨hn, hbufs⟩ := hbufs
    rw [List.flatMap_cons] at hsamples ⊢
    rw [hr, List.take_length] at hsamples ⊢
    obtain ⟨rest, rfl⟩ := hsamples
    rw [List.append_assoc]
    have hrest := @ih (results.flatMap (fun r ↦ r.buf.take r.n) ++ rest) bufs hfull
      (List.prefix_append ..) hbufs
    have hlen : buf.length = r.buf.length := by rw [← hn, hr]
    have hresult : (⟨r.buf, r.buf.length⟩ : ReadResult) = r := by rw [← hr]
    rw [served_cons_of_le (by simp [hlen]), hlen, List.take_left, List.drop_left, hrest, hresult]
    simp [← List.drop_drop]

namespace OggStream

variable {file : OggFile} {bufs : List (List Int16)} {s t : OggStream}

/-! ### A run in which nobody sets the flag -/

/-- The stream is somewhere in its work on `file` and the calls for `bufs`. -/
def Running (file : OggFile) (bufs : List (List Int16)) (s : OggStream) : Prop :=
  machine.Reaches (· ≠ .setEndOfFile) (start file bufs) s

theorem Running.exists_run (h : Running file bufs s) :
    ∃ as, .setEndOfFile ∉ as ∧ machine.run (start file bufs) as = some s := by
  obtain ⟨as, has, hrun⟩ := h
  exact ⟨as, fun hmem ↦ has _ hmem rfl, hrun⟩

theorem Running.of_run {as : List StreamAction}
    (hrun : machine.run (start file bufs) as = some s) (has : .setEndOfFile ∉ as) :
    Running file bufs s :=
  StepMachine.Reaches.of_run hrun fun _ ha heq ↦ has (heq ▸ ha)

theorem Running.step {a : StreamAction} (h : Running file bufs s) (ha : a ≠ .setEndOfFile)
    (hstep : s.step a = some t) : Running file bufs t :=
  h.tail ha hstep

theorem Running.lossless (h : Running file bufs s) : Lossless file bufs s := by
  obtain ⟨as, has, hrun⟩ := h.exists_run
  exact lossless_of_run hrun has

theorem Running.supplied (h : Running file bufs s) :
    Synchronised file bufs s ∧ Supplied file s := by
  obtain ⟨as, has, hrun⟩ := h.exists_run
  exact supplied_of_run hrun has

/-- What has been pushed is the front of the supply. -/
theorem Running.pushed_prefix (h : Running file bufs s) :
    s.pushed.flatten <+: file.supply := by
  obtain ⟨hs, hp⟩ := h.supplied
  have hd := hp.decoder
  have hpackets := hs.lossless.packets
  have hrest (hopen : file.opens = true ∧ file.decodes = true) :
      s.pushed.flatten <+: file.supply := by
    rw [OggFile.supply_eq hopen, ← hpackets, List.append_assoc, List.flatten_append]
    exact List.prefix_append ..
  cases hpc : s.decoder with
  | openFile =>
    rw [hpc] at hd
    have hd : s.pushed = [] := hd
    simp [hd]
  | newDecoder =>
    rw [hpc] at hd
    simp [hd.1]
  | terminated r =>
    rw [hpc] at hd
    exact (show s.pushed.flatten = file.supply from hd) ▸ List.prefix_refl _
  | _ =>
    rw [hpc] at hd
    exact hrest hd

/-! ### More calls to come -/

/-- The same stream with more calls of `read` to come. -/
def expecting (s : OggStream) (more : List (List Int16)) : OggStream :=
  { s with bufs := s.bufs ++ more }

theorem decoderStep_expecting (s : OggStream) (more : List (List Int16)) :
    (s.expecting more).decoderStep = s.decoderStep.map fun t ↦ t.expecting more := by
  obtain ⟨buffer, eof, lock, condvar, ⟨opens, decodes, packets, packetError⟩, decoder, bufs,
    reader, returned, pushed⟩ := s
  cases decoder with
  | openFile => cases opens <;> rfl
  | newDecoder => cases decodes <;> rfl
  | nextPacket =>
    cases packets with
    | nil => cases packetError <;> rfl
    | cons packet packets => rfl
  | lockCheck packet | lockPush packet => cases lock <;> rfl
  | check packet =>
    simp only [decoderStep, expecting, apply_ite (Option.map _), Option.map_some]
    rfl
  | waiting packet =>
    cases lock with
    | none => cases hw : condvar.status .decoder <;> simp [decoderStep, expecting, hw]
    | some p => rfl
  | push packet | notify | terminated r => rfl

theorem readerStep_expecting {s : OggStream} (h : s.reader ≠ .idle ∨ s.bufs ≠ [])
    (more : List (List Int16)) :
    (s.expecting more).readerStep = s.readerStep.map fun t ↦ t.expecting more := by
  obtain ⟨buffer, eof, lock, condvar, file, decoder, bufs, reader, returned, pushed⟩ := s
  cases reader with
  | idle =>
    cases bufs with
    | nil => simp at h
    | cons buf bufs => rfl
  | lockBuffer f eos => cases lock <;> rfl
  | waiting f =>
    cases lock with
    | none => cases hw : condvar.status .reader <;> simp [readerStep, expecting, hw]
    | some p => rfl
  | loopHead f | copy f samples =>
    simp only [readerStep, expecting, return_, apply_ite (Option.map _), Option.map_some]
  | checkEmpty f eos | drain f eos =>
    simp only [readerStep, expecting, return_, apply_ite (Option.map _), Option.map_some]
    rfl
  | readEos f | notify f | panicked => rfl

theorem step_expecting {a : StreamAction} (h : s.step a = some t) (more : List (List Int16)) :
    (s.expecting more).step a = some (t.expecting more) := by
  cases a with
  | decoder =>
    have hs : s.decoderStep = some t := h
    show (s.expecting more).decoderStep = _
    rw [decoderStep_expecting, hs, Option.map_some]
  | reader =>
    have hs : s.readerStep = some t := h
    have hcan : s.reader ≠ .idle ∨ s.bufs ≠ [] := by
      by_contra hno
      simp only [not_or, not_not] at hno
      simp [readerStep, hno.1, hno.2] at hs
    show (s.expecting more).readerStep = _
    rw [readerStep_expecting hcan, hs, Option.map_some]
  | wake p =>
    obtain ⟨hp, rfl⟩ := step_wake_cases h
    simp [step, expecting, hp]
  | setEndOfFile =>
    cases h
    rfl

/-- A call that nobody has made yet makes no difference. -/
theorem Running.expecting (h : Running file bufs s) (more : List (List Int16)) :
    Running file (bufs ++ more) (s.expecting more) :=
  StepMachine.Reaches.map (M := machine) (N := machine) (fun s ↦ s.expecting more)
    (fun _ _ _ ha hstep ↦ .single ha (step_expecting hstep more)) h

/-! ### Where the sides stop -/

/-- A reader that waits while neither side can move is stuck: were there enough samples for more
calls than have been made, one of the two would go on. -/
theorem Running.stuck_of_waiting (h : Running file bufs s) (hd : s.decoderStep = none)
    (hr : s.readerStep = none) {f : ReadFrame} (hf : s.reader = .waiting f) : Stuck s := by
  have hlong : file.supply.length < requested
      (bufs ++ [List.replicate (file.supply.length + 1) 0]) := by
    simp [requested]
    omega
  obtain ⟨hs, hp⟩ := (h.expecting [List.replicate (file.supply.length + 1) 0]).supplied
  have hd' := s.decoderStep_expecting [List.replicate (file.supply.length + 1) 0]
  have hr' := readerStep_expecting (s := s) (.inl (by simp [hf]))
    [List.replicate (file.supply.length + 1) 0]
  rw [hd, Option.map_none] at hd'
  rw [hr, Option.map_none] at hr'
  exact hs.stuck hp hd' hr' hlong

/-- Neither side can move: all calls have returned, or the reader is stuck. -/
theorem Running.stopped (h : Running file bufs s) (hd : s.decoderStep = none)
    (hr : s.readerStep = none) : (s.reader = .idle ∧ s.bufs = []) ∨ Stuck s := by
  obtain ⟨hs, -⟩ := h.supplied
  have hl := hs.locked.lock_eq_none hd hr
  obtain hidle | ⟨f, hf, -⟩ := reader_stopped hl hr hs.lossless.reader
  · exact .inl hidle
  · exact .inr (h.stuck_of_waiting hd hr hf)

/-- And so is what has been returned. -/
theorem Running.returnedSamples_prefix (h : Running file bufs s) :
    s.returnedSamples <+: file.supply := by
  refine List.IsPrefix.trans ?_ h.pushed_prefix
  rw [← h.lossless.samples, List.append_assoc]
  exact List.prefix_append ..

/-- Behind the calls that have returned, the sequential reading stands where the stream does. -/
theorem Running.served_eq (h : Running file bufs s) : served file.supply bufs =
    s.returned ++ served (file.supply.drop s.returnedSamples.length)
      (s.reader.frame.toList.map ReadFrame.buf ++ s.bufs) := by
  have hl := h.lossless
  have hsamples := h.returnedSamples_prefix
  have hrequests := hl.requests
  rw [List.append_assoc] at hrequests
  have hlens : (bufs.drop s.returned.length).map List.length =
      (s.reader.frame.toList.map ReadFrame.buf ++ s.bufs).map List.length := by
    rw [List.map_drop, ← hrequests, List.drop_left' (by simp)]
    simp [Function.comp_def]
  rw [served_of_full hl.full hsamples ⟨_, hrequests⟩, served_congr hlens]
  rfl

/-- A stuck reader is at the first call that the sequential reading does not serve. -/
theorem Running.served_of_stuck (h : Running file bufs s) (hstuck : Stuck s) :
    served (file.supply.drop s.returnedSamples.length)
      (s.reader.frame.toList.map ReadFrame.buf ++ s.bufs) = [] := by
  obtain ⟨r, f, hd, hb, hr, -, -⟩ := hstuck
  obtain ⟨hs, hp⟩ := h.supplied
  have hcount : f.copyCount < f.buf.length := by simpa [hr, ReaderPc.Sound] using hs.lossless.reader
  have hpushed : s.pushed.flatten = file.supply := by
    simpa [hd, DecoderPc.Supplied] using hp.decoder
  have hlen := congrArg List.length (hpushed ▸ hs.lossless.samples)
  simp only [hr, hb, ReaderPc.inProgress, ReaderPc.frame, ReaderPc.drained, Option.elim,
    ReadFrame.copied, List.append_nil, List.length_append, List.length_take] at hlen
  rw [hr]
  refine served_cons_of_lt ?_ _
  rw [List.length_drop]
  omega

/-- **The reads are those of a sequential reader.** Over every run, whatever the schedule: the
calls that have returned are the first ones of the sequential reading of what the thread supplies,
and when neither side can move they are all that it serves. -/
theorem returned_eq_served {as : List StreamAction}
    (hrun : machine.run (start file bufs) as = some s) (has : .setEndOfFile ∉ as) :
    s.returned <+: served file.supply bufs ∧
      (s.decoderStep = none → s.readerStep = none → s.returned = served file.supply bufs) := by
  have h : Running file bufs s := .of_run hrun has
  have hserved := h.served_eq
  refine ⟨hserved ▸ List.prefix_append .., fun hd hr ↦ ?_⟩
  obtain ⟨hidle, hbufs⟩ | hstuck := h.stopped hd hr
  · rw [hserved, hidle, hbufs]
    exact (List.append_nil _).symm
  · rw [hserved, h.served_of_stuck hstuck, List.append_nil]

/-- Two packets, the first without a sample. The first call takes both samples of the second, and
the next one is not served. -/
theorem returned_eq_served_twoPackets :
    ∃ s, machine.run (start ⟨true, true, [[], [5, 6]], false⟩ [[0, 0], [0]])
        (List.replicate 15 .decoder ++ List.replicate 12 .reader) = some s ∧
      s.returned = [⟨[5, 6], 2⟩] ∧
      s.returned = served (OggFile.supply ⟨true, true, [[], [5, 6]], false⟩) [[0, 0], [0]] := by
  have hserved (s : OggStream)
      (hs : machine.run (start ⟨true, true, [[], [5, 6]], false⟩ [[0, 0], [0]])
        (List.replicate 15 .decoder ++ List.replicate 12 .reader) = some s)
      (hd : s.decoderStep = none) (hr : s.readerStep = none) :
      s.returned = served (OggFile.supply ⟨true, true, [[], [5, 6]], false⟩) [[0, 0], [0]] :=
    (returned_eq_served hs (by simp)).2 hd hr
  exact ⟨_, rfl, rfl, hserved _ rfl rfl rfl⟩

/-! ### How long they run -/

/-- What a step may put back into the measure: a spurious wake-up sends a side round its loop
once more. -/
def wakeCost : StreamAction → ℕ
  | .wake _ => 5
  | .setEndOfFile => 1
  | _ => 0

theorem measure_step {a : StreamAction} (h : s.step a = some t) :
    measure t + 1 ≤ measure s + wakeCost a := by
  cases a with
  | decoder => exact measure_decoder_move (decoderMove_of_step h)
  | reader => exact measure_reader_move (readerMove_of_step h)
  | wake p =>
    obtain ⟨-, rfl⟩ := step_wake_cases h
    have hother (q : Party) (hq : q ≠ p) :
        (s.bufferCondvar.wake p).status q = s.bufferCondvar.status q := by
      rw [WaitSet.wake_status, if_neg hq]
    cases p with
    | decoder =>
      have hd := s.decoder.rank_le ((s.bufferCondvar.wake .decoder).status .decoder)
        (s.bufferCondvar.status .decoder)
      simp only [measure, wakeCost, hother .reader (by decide)]
      omega
    | reader =>
      have hr := s.reader.rank_le ((s.bufferCondvar.wake .reader).status .reader)
        (s.bufferCondvar.status .reader)
      simp only [measure, wakeCost, hother .decoder (by decide)]
      omega
  | setEndOfFile =>
    cases h
    exact Nat.le_refl _

/-- **The stream comes to a stop.** In every run the number of steps is bounded by the packets of
the file, the samples asked for and the calls, with five steps for each spurious wake-up and one
for each time somebody sets the flag. -/
theorem length_run_le {as : List StreamAction}
    (hrun : machine.run (start file bufs) as = some s) :
    as.length ≤ 10 + 30 * file.packets.length + 20 * requested bufs + 10 * bufs.length +
      (as.map wakeCost).sum := by
  have hle := StepMachine.run_length_le (I := fun _ ↦ True) measure wakeCost
    (fun _ _ _ _ _ ↦ trivial) (fun _ _ _ _ h ↦ measure_step h) trivial hrun
  have hstart : measure (start file bufs) =
      10 + 30 * file.packets.length + 20 * requested bufs + 10 * bufs.length := by
    simp only [measure, start, DecoderPc.inHand, DecoderPc.rank, ReaderPc.toDrain, ReaderPc.frame,
      ReaderPc.rank, Option.toList_none, List.length_nil, Option.elim]
    omega
  omega

/-- A read that is woken for nothing twice. -/
theorem length_run_le_woken : ∃ s, machine.run (start ⟨true, true, [], false⟩ [[0]])
      (List.replicate 4 .reader ++ [.wake .reader, .reader, .reader, .reader, .wake .reader]) =
        some s ∧
    9 ≤ 10 + 30 * 0 + 20 * requested [[0]] + 10 * 1 + 10 := by
  have hle (s : OggStream) (hs : machine.run (start ⟨true, true, [], false⟩ [[0]])
      (List.replicate 4 .reader ++ [.wake .reader, .reader, .reader, .reader, .wake .reader]) =
        some s) := length_run_le hs
  exact ⟨_, rfl, hle _ rfl⟩

end OggStream

end Esp32A2dpPlayer
