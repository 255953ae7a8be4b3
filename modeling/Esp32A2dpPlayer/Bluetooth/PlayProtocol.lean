import Mathlib.Data.List.Forall2
import Esp32A2dpPlayer.Bluetooth.A2dpPlay

/-!
# The protocol of `play`

Each `play` asks the stack once whether the source is ready, and what the stack answers comes by
way of `SRC_READY_CALL`, which all plays share. The answers carry no number. That the answer a
`play` takes is its own rests on two things: the plays follow one another, and the stack answers no
check that has not been given (`Solicited`).

Then the slot is empty whenever a check is given, and the one answer that can be in it is the one
the listener waits for. `Phase` says so for each place that `play` can be at.

* `play_follows_answer`: the media is started only with the stream in place and after its own
  check has been answered with success, the plays return what their answers say, and taking the
  answer never panics.
* `play_waits_for`: and no wake-up is lost. Where nothing but the stack can move `play`, it is idle,
  the data callback has the guard, or the stack owes it the return of a command or the answer to its
  check.
-/

namespace Esp32A2dpPlayer

/-- The result of a `play` that follows from the answer to its check. -/
def MediaCtrlAck.Yields : MediaCtrlAck → Except PlayError Unit → Prop
  | .success, r => r = .ok () ∨ ∃ code, r = .error (.esp code)
  | .other status, r => r = .error (.anyhow ("Media error " ++ toString status))

namespace A2dpPlay

variable {s t : A2dpPlay} {a : PlayAction} {as : List PlayAction} {n : ℕ}

/-- The stack answers a check only after it has been given. -/
def Solicited (s : A2dpPlay) (a : PlayAction) : Prop :=
  ∀ status, a = .event (.mediaCtrlAck .checkSrcRdy status) → s.acks.length < s.checks

/-- The first `n` checks have been given and answered, and their answers have been taken. -/
def Quiet (s : A2dpPlay) (n : ℕ) : Prop :=
  s.checks = n ∧ s.acks.length = n ∧ s.completing = none ∧ s.srcReadyCall.result = none

/-- Check `n` has been answered, and the answer is in the slot. -/
def Answered (s : A2dpPlay) (n : ℕ) (ack : MediaCtrlAck) : Prop :=
  s.checks = n + 1 ∧ s.acks.length = n + 1 ∧ s.acks[n]? = some ack ∧
    s.srcReadyCall.result = some ack.result

/-- Check `n` has been given. Its answer is to come, or in the slot before or after the `notify`. -/
def Asked (s : A2dpPlay) (n : ℕ) : Prop :=
  (s.checks = n + 1 ∧ s.acks.length = n ∧ s.completing = none ∧ s.srcReadyCall.result = none ∧
    s.srcReadyCall.event.status n = .waiting) ∨
  ∃ ack, s.Answered n ack ∧
    ((s.completing = some n ∧ s.srcReadyCall.event.status n = .waiting) ∨
      (s.completing = none ∧ s.srcReadyCall.event.status n = .notified))

/-- What holds where `do_and_wait` stands, between two calls of the stack. -/
def CallPhase (s : A2dpPlay) (n : ℕ) : CallerPc (Except PlayError Unit) → Prop
  | .idle => s.Quiet n
  | .listening => s.Quiet n ∧ s.srcReadyCall.event.status n = .waiting
  | .awaiting => s.Asked n
  | .resumed => s.completing = none ∧ ∃ ack, s.Answered n ack
  | _ => False

/-- What holds where `play` stands. -/
def Phase (s : A2dpPlay) : PlayPc → Prop
  | .idle => s.Quiet s.nextStream
  | .lock n | .setStream n => s.Quiet n ∧ s.srcReadyCall.caller n = .idle
  | .doAndWait n => s.playState = some n ∧ s.CallPhase n (s.srcReadyCall.caller n)
  | .checkSrcRdy n => s.playState = some n ∧ s.srcReadyCall.caller n = .listening ∧ s.Asked n
  | .start n => s.playState = some n ∧ s.Quiet (n + 1) ∧ s.acks[n]? = some .success

/-- The number of plays that have returned. -/
def finished (s : A2dpPlay) : ℕ := s.play.stream?.getD s.nextStream

/-- The results of the plays that have been given a stream. -/
def answers (s : A2dpPlay) : List (Except PlayError Unit) :=
  s.results.filter fun
    | .error (.spawn _) => false
    | _ => true

/-- **The invariant of the protocol.** -/
structure Protocol (s : A2dpPlay) : Prop where
  newest : ∀ n, s.play.stream? = some n → n + 1 = s.nextStream
  fresh : ∀ i, s.nextStream ≤ i → s.srcReadyCall.caller i = .idle
  completing : ∀ k, s.completing = some k → ∃ v, s.srcReadyCall.completer k = .replaced v
  phase : s.panicked = false → s.Phase s.play
  answers : List.Forall₂ MediaCtrlAck.Yields (s.acks.take s.finished) s.answers

theorem protocol_new : Protocol new where
  newest n h := by cases h
  fresh i hi := rfl
  completing k h := by cases h
  phase h := ⟨rfl, rfl, rfl, rfl⟩
  answers := .nil

/-- A call moves that is not new. -/
theorem fresh_update {call : AsyncCall ℕ ℕ (Except PlayError Unit)} {k : ℕ}
    (hfresh : ∀ i, k ≤ i → call.caller i = .idle) (hn : n < k)
    (pc : CallerPc (Except PlayError Unit)) :
    ∀ i, k ≤ i → Function.update call.caller n pc i = .idle := by
  intro i hi
  rw [Function.update_of_ne (by omega)]
  exact hfresh i hi

/-- `play` returns what its answer says. -/
theorem protocol_playReturns {ack : MediaCtrlAck} {r : Except PlayError Unit}
    (hn : n + 1 = s.nextStream) (hfresh : ∀ i, s.nextStream ≤ i → s.srcReadyCall.caller i = .idle)
    (hquiet : s.Quiet (n + 1)) (hack : s.acks[n]? = some ack) (hr : ack.Yields r)
    (hanswers : List.Forall₂ MediaCtrlAck.Yields (s.acks.take n) s.answers) :
    Protocol (s.playReturns r) := by
  have hconcat : (s.playReturns r).answers = s.answers ++ [r] := by
    rw [answers, playReturns, List.filter_append]
    refine congrArg _ (List.filter_eq_self.2 fun r' hr' ↦ ?_)
    obtain rfl := List.mem_singleton.1 hr'
    cases ack with
    | success => obtain rfl | ⟨code, rfl⟩ := hr <;> rfl
    | other status =>
      obtain rfl : _ = _ := hr
      rfl
  obtain ⟨hchecks, hacks, hcompleting, hresult⟩ := hquiet
  refine ⟨fun i hi ↦ (by cases hi), hfresh, fun k hk ↦ ?_, fun _ ↦ ?_, ?_⟩
  · rw [show (s.playReturns r).completing = none from hcompleting] at hk
    cases hk
  · exact ⟨hchecks.trans hn, hacks.trans hn, hcompleting, hresult⟩
  · show List.Forall₂ _ (s.acks.take s.nextStream) _
    rw [hconcat, ← hn, List.take_add_one, hack]
    exact List.rel_append hanswers (.cons hr .nil)

theorem Protocol.takes (hs : Protocol s) (hpanic : s.panicked = false) (hn : s.play = .doAndWait n)
    {call : AsyncCall ℕ ℕ (Except PlayError Unit)}
    (hcall : s.srcReadyCall.step (.take n) = some call) :
    ∃ ack, s.Answered n ack ∧ s.completing = none ∧ s.playState = some n ∧
      call = { s.srcReadyCall with
        result := none
        caller := Function.update s.srcReadyCall.caller n (.returned ack.result) } := by
  obtain ⟨hresumed, hcase⟩ := AsyncCall.step_take_iff.1 hcall
  obtain ⟨hstate, hphase⟩ : s.Phase (.doAndWait n) := hn ▸ hs.phase hpanic
  rw [hresumed] at hphase
  obtain ⟨hcompleting, ack, hack⟩ := hphase
  obtain ⟨v, hv, rfl⟩ | ⟨hnone, -⟩ := hcase
  · rw [hack.2.2.2] at hv
    cases hv
    exact ⟨ack, hack, hcompleting, hstate, rfl⟩
  · rw [hack.2.2.2] at hnone
    cases hnone

/-- A check whose answer is not in the slot is the one that `play` is at, and it stays so whatever
happens to the slot. -/
theorem Phase.asked (h : s.Phase s.play) (hlt : s.acks.length < s.checks ∨ s.completing ≠ none) :
    ∃ n, s.play.stream? = some n ∧ s.Asked n ∧
      ∀ u : A2dpPlay, u.playState = s.playState → u.srcReadyCall.caller = s.srcReadyCall.caller →
        u.Asked n → u.Phase s.play := by
  have hno {n : ℕ} (hquiet : s.Quiet n) : False := by
    obtain ⟨hchecks, hacks, hcompleting, -⟩ := hquiet
    obtain hlt | hne := hlt
    · omega
    · exact hne hcompleting
  cases hpc : s.play with
  | idle => exact (hno (hpc ▸ h : s.Phase .idle)).elim
  | lock n => exact (hno (hpc ▸ h : s.Phase (.lock n)).1).elim
  | setStream n => exact (hno (hpc ▸ h : s.Phase (.setStream n)).1).elim
  | start n => exact (hno (hpc ▸ h : s.Phase (.start n)).2.1).elim
  | checkSrcRdy n =>
    obtain ⟨hstate, hlistening, hasked⟩ : s.Phase (.checkSrcRdy n) := hpc ▸ h
    exact ⟨n, rfl, hasked, fun u hu hcaller hasked ↦
      ⟨hu.trans hstate, (congrFun hcaller n).trans hlistening, hasked⟩⟩
  | doAndWait n =>
    obtain ⟨hstate, hcall⟩ : s.Phase (.doAndWait n) := hpc ▸ h
    cases hcaller : s.srcReadyCall.caller n with
    | idle => exact (hno (hcaller ▸ hcall : s.CallPhase n .idle)).elim
    | listening => exact (hno (hcaller ▸ hcall : s.CallPhase n .listening).1).elim
    | awaiting =>
      refine ⟨n, rfl, (hcaller ▸ hcall : s.CallPhase n .awaiting), fun u hu hcaller' hasked ↦ ?_⟩
      refine ⟨hu.trans hstate, ?_⟩
      rw [hcaller', hcaller]
      exact hasked
    | resumed =>
      obtain ⟨hcompleting, ack, hchecks, hacks, -⟩ : s.CallPhase n .resumed := hcaller ▸ hcall
      obtain hlt | hne := hlt
      · omega
      · exact (hne hcompleting).elim
    | returned v => exact (hcaller ▸ hcall : s.CallPhase n (.returned v)).elim
    | panicked => exact (hcaller ▸ hcall : s.CallPhase n .panicked).elim

/-- **Every step keeps the protocol.** -/
theorem Protocol.move (hs : Protocol s) (hpanic : s.panicked = false) (hC : Solicited s a)
    (h : Move s a t) : Protocol t := by
  have hphase := hs.phase hpanic
  have hfinished := hs.answers
  rw [finished] at hfinished
  cases h with
  | playbackTask h =>
    rw [h] at hphase hfinished
    refine ⟨by simp [PlayPc.stream?, PlayStreams.newStream],
      fun i hi ↦ hs.fresh i (Nat.le_of_succ_le hi), hs.completing, fun _ ↦ ?_, hfinished⟩
    exact ⟨hphase, hs.fresh _ (Nat.le_refl _)⟩
  | spawnFails h =>
    refine ⟨hs.newest, hs.fresh, hs.completing, fun _ ↦ hphase, ?_⟩
    simpa [A2dpPlay.answers, finished] using hfinished
  | locks h hl =>
    have hnewest := hs.newest
    rw [h] at hphase hfinished hnewest
    exact ⟨hnewest, hs.fresh, hs.completing, fun _ ↦ hphase, hfinished⟩
  | @sets n h =>
    have hnewest := hs.newest
    rw [h] at hphase hfinished hnewest
    obtain ⟨hquiet, hidle⟩ := hphase
    refine ⟨hnewest, hs.fresh, hs.completing, fun _ ↦ ⟨rfl, ?_⟩, hfinished⟩
    show CallPhase _ n (s.srcReadyCall.caller n)
    rw [hidle]
    exact hquiet
  | @listens n call h hcall =>
    have hnewest := hs.newest n (by rw [h]; rfl)
    rw [h] at hphase
    obtain ⟨hidle, rfl⟩ := AsyncCall.step_listen_iff.1 hcall
    obtain ⟨hstate, hquiet⟩ := hphase
    rw [hidle] at hquiet
    refine ⟨hs.newest, fresh_update hs.fresh (by omega) _, hs.completing, fun _ ↦ ?_, hs.answers⟩
    show Phase _ s.play
    rw [h]
    refine ⟨hstate, ?_⟩
    show CallPhase _ n (Function.update s.srcReadyCall.caller n .listening n)
    rw [Function.update_self]
    exact ⟨hquiet, by simp [WaitSet.register_status]⟩
  | @checks n h hlistening =>
    have hnewest := hs.newest
    rw [h] at hphase hfinished hnewest
    obtain ⟨hstate, hquiet⟩ := hphase
    rw [hlistening] at hquiet
    obtain ⟨⟨hchecks, hacks, hcompleting, hresult⟩, hwaiting⟩ := hquiet
    exact ⟨hnewest, hs.fresh, hs.completing, fun _ ↦ ⟨hstate, hlistening,
      .inl ⟨congrArg (· + 1) hchecks, hacks, hcompleting, hresult, hwaiting⟩⟩, hfinished⟩
  | @resumes n call h hcall =>
    have hnewest := hs.newest n (by rw [h]; rfl)
    rw [h] at hphase
    obtain ⟨⟨hawaiting, hnotified⟩, rfl⟩ := AsyncCall.step_resume_iff.1 hcall
    obtain ⟨hstate, hasked⟩ := hphase
    rw [hawaiting] at hasked
    refine ⟨hs.newest, fresh_update hs.fresh (by omega) _, hs.completing, fun _ ↦ ?_, hs.answers⟩
    show Phase _ s.play
    rw [h]
    refine ⟨hstate, ?_⟩
    show CallPhase _ n (Function.update s.srcReadyCall.caller n .resumed n)
    rw [Function.update_self]
    obtain ⟨-, -, -, -, hwaiting⟩ | ⟨ack, hack, ⟨-, hwaiting⟩ | ⟨hcompleting, -⟩⟩ := hasked
    · rw [hnotified] at hwaiting
      cases hwaiting
    · rw [hnotified] at hwaiting
      cases hwaiting
    · exact ⟨hcompleting, ack, hack⟩
  | @ready n call v h hcall hv =>
    have hnewest := hs.newest
    obtain ⟨ack, ⟨hchecks, hacks, hack, -⟩, hcompleting, hstate, rfl⟩ := hs.takes hpanic h hcall
    have hsuccess : ack = .success := by
      simp only [Function.update_self, CallerPc.returned.injEq] at hv
      cases ack with
      | success => rfl
      | other status => cases hv
    rw [h] at hfinished hnewest
    exact ⟨hnewest, fresh_update hs.fresh (hnewest n rfl ▸ Nat.lt_succ_self n) _, hs.completing,
      fun _ ↦ ⟨hstate, ⟨hchecks, hacks, hcompleting, rfl⟩, hsuccess ▸ hack⟩, hfinished⟩
  | @notReady n call e h hcall hv =>
    have hnewest := hs.newest n (by rw [h]; rfl)
    obtain ⟨ack, ⟨hchecks, hacks, hack, -⟩, hcompleting, hstate, rfl⟩ := hs.takes hpanic h hcall
    have hyields : ack.Yields (.error e) := by
      simp only [Function.update_self, CallerPc.returned.injEq] at hv
      cases ack with
      | success => cases hv
      | other status => exact hv.symm
    rw [h] at hfinished
    exact protocol_playReturns hnewest (fresh_update hs.fresh (by omega) _)
      ⟨hchecks, hacks, hcompleting, rfl⟩ hack hyields hfinished
  | takePanics h hcall hv =>
    obtain ⟨ack, -, -, -, rfl⟩ := hs.takes hpanic h hcall
    exact absurd (Function.update_self ..) (hv ack.result)
  | @checkReturns n call ret h hcall =>
    have hnewest := hs.newest
    obtain ⟨-, rfl⟩ := AsyncCall.step_runF_iff.1 hcall
    rw [h] at hphase hfinished hnewest
    obtain ⟨hstate, -, hasked⟩ := hphase
    refine ⟨hnewest, fresh_update hs.fresh (hnewest n rfl ▸ Nat.lt_succ_self n) _, hs.completing,
      fun _ ↦ ⟨hstate, ?_⟩, hfinished⟩
    show CallPhase _ n (Function.update s.srcReadyCall.caller n .awaiting n)
    rw [Function.update_self]
    exact hasked
  | checkRefused _ | eventPanics _ _ | readPanics _ _ =>
    exact ⟨hs.newest, hs.fresh, hs.completing, by simp, hs.answers⟩
  | started h =>
    have hnewest := hs.newest _ (by rw [h]; rfl)
    rw [h] at hphase hfinished
    exact protocol_playReturns hnewest hs.fresh hphase.2.1 hphase.2.2 (.inl rfl) hfinished
  | startRefused h =>
    have hnewest := hs.newest _ (by rw [h]; rfl)
    rw [h] at hphase hfinished
    exact protocol_playReturns hnewest hs.fresh hphase.2.1 hphase.2.2 (.inr ⟨_, rfl⟩) hfinished
  | @acks status call h hcall =>
    have hlt := hC status rfl
    obtain ⟨hidle, rfl⟩ := AsyncCall.step_replace_iff.1 hcall
    obtain ⟨n, hn, hasked, hnext⟩ := hphase.asked (.inl hlt)
    obtain ⟨hchecks, hacks, -, -, hwaiting⟩ | ⟨ack, ⟨hchecks, hacks, -⟩, -⟩ := hasked
    swap
    · omega
    refine ⟨hs.newest, hs.fresh, fun k hk ↦ ?_, fun _ ↦ hnext _ rfl rfl (.inr ⟨status, ?_, ?_⟩), ?_⟩
    · obtain rfl := Option.some.inj hk
      exact ⟨status.result, Function.update_self ..⟩
    · exact ⟨hchecks, by simp [hacks], by simp [← hacks], rfl⟩
    · exact .inl ⟨congrArg some hacks, hwaiting⟩
    · rw [hn] at hfinished
      show List.Forall₂ _ ((s.acks ++ [status]).take (s.play.stream?.getD s.nextStream)) _
      rw [hn, Option.getD_some, List.take_append_of_le_length (Nat.le_of_eq hacks.symm)]
      exact hfinished
  | @notifies k call h hcall =>
    obtain ⟨v, hv, rfl⟩ := AsyncCall.step_notify_iff.1 hcall
    obtain ⟨n, hn, hasked, hnext⟩ := hphase.asked (.inr (by simp [h]))
    obtain ⟨-, -, hcompleting, -⟩ | ⟨ack, hack, ⟨-, hwaiting⟩ | ⟨hcompleting, -⟩⟩ := hasked
    · rw [h] at hcompleting
      cases hcompleting
    · refine ⟨hs.newest, hs.fresh, fun k hk ↦ (by cases hk), fun _ ↦ hnext _ rfl rfl
        (.inr ⟨ack, hack, .inr ⟨rfl, ?_⟩⟩), hs.answers⟩
      exact WaitSet.notifyAll_status_eq_notified_iff.2 (by simp [hwaiting])
    · rw [h] at hcompleting
      cases hcompleting
  | ignores _ _ | dataReturns _ _ _ | dataLocks _ _ _ | noStream _ _ _ | noStreamReturns _
  | callRead _ _ _ | readStep _ _ | readReturns _ _ _ | stream _ _ _ =>
    exact ⟨hs.newest, hs.fresh, hs.completing, hs.phase, hs.answers⟩

theorem protocol_of_run (hC : machine.AllSteps Solicited new as)
    (h : machine.run new as = some s) : Protocol s :=
  machine.run_invariant_of_allSteps (I := fun _ s ↦ Protocol s) protocol_new
    (fun _ _ _ _ _ hs hC ht ↦ hs.move (panicked_of_step ht) hC (move_of_step ht)) hC h

/-- **Each play follows its own answer.** Over every run in which the stack answers no check that
has not been given: the media is started only with the stream of this `play` in place, and after
its own check has been answered with success; the plays that have been given a stream return, one
after the other, what the answers say, none skipped and none used twice; and taking an answer never
panics. -/
theorem play_follows_answer (hC : machine.AllSteps Solicited new as)
    (h : machine.run new as = some s) :
    (∀ n, s.play = .start n → s.panicked = false →
      s.playState = some n ∧ s.acks[n]? = some .success) ∧
      (∃ acks, acks <+: s.acks ∧ List.Forall₂ MediaCtrlAck.Yields acks s.answers) ∧
        ∀ t, s.step .play = some t → t.panicked = false := by
  have hs := protocol_of_run hC h
  refine ⟨fun n hn hpanic ↦ ?_, ⟨_, List.take_prefix .., hs.answers⟩, fun t hstep ↦ ?_⟩
  · obtain ⟨hstate, -, hack⟩ : s.Phase (.start n) := hn ▸ hs.phase hpanic
    exact ⟨hstate, hack⟩
  · have hpanic := panicked_of_step hstep
    cases move_of_step hstep with
    | takePanics hn hcall hv =>
      obtain ⟨ack, -, -, -, rfl⟩ := hs.takes hpanic hn hcall
      exact absurd (Function.update_self ..) (hv ack.result)
    | stream ha _ _ => simp at ha
    | _ => exact hpanic

/-- A check whose answer comes before the command returns. -/
def quickAnswer : List PlayAction :=
  [.playbackTask ⟨true, true, [], false⟩ (.ok ()), .play, .play, .play, .play,
    .event (.mediaCtrlAck .checkSrcRdy .success), .mediaCtrl (.ok ()), .notify, .play, .play]

theorem play_follows_answer_quickAnswer : ∃ s, machine.run new quickAnswer = some s ∧
    s.play = .start 0 ∧ s.playState = some 0 ∧ s.acks[0]? = some .success := by
  have hC : machine.AllSteps Solicited new quickAnswer := by
    refine .cons (by simp [Solicited]) rfl <| .cons (by simp [Solicited]) rfl <|
      .cons (by simp [Solicited]) rfl <| .cons (by simp [Solicited]) rfl <|
        .cons (by simp [Solicited]) rfl <| .cons (fun _ _ ↦ Nat.zero_lt_one) rfl <|
          .cons (by simp [Solicited]) rfl <| .cons (by simp [Solicited]) rfl <|
            .cons (by simp [Solicited]) rfl <| .cons (by simp [Solicited]) rfl .nil
  have hstart (s : A2dpPlay) (hs : machine.run new quickAnswer = some s) :=
    (play_follows_answer hC hs).1
  exact ⟨_, rfl, rfl, hstart _ rfl 0 rfl rfl⟩

/-- **No wake-up is lost.** Where neither `play` nor the `notify` of a completion can take a step,
`play` is idle, or the data callback has the guard, or a command has not returned, or its check has
been given and the stack has not answered it. -/
theorem play_waits_for (hC : machine.AllSteps Solicited new as)
    (h : machine.run new as = some s) (hpanic : s.panicked = false)
    (hplay : s.step .play = none) (hnotify : s.step .notify = none) :
    s.play = .idle ∨ (∃ n, s.play = .lock n ∧ s.lock = some .data) ∨
      (∃ n, s.play = .checkSrcRdy n ∨ s.play = .start n) ∨
        ∃ n, s.play = .doAndWait n ∧ s.checks = n + 1 ∧ s.acks.length = n := by
  have hs := protocol_of_run hC h
  have hguard := (guarded_of_run h).play
  have hphase := hs.phase hpanic
  replace hplay : s.playStep = none := by simpa [step, hpanic] using hplay
  replace hnotify : s.notify = none := by simpa [step, hpanic] using hnotify
  cases hpc : s.play with
  | idle => exact .inl rfl
  | lock n =>
    rw [playStep, hpc] at hplay
    cases hl : s.lock with
    | none => simp [hl] at hplay
    | some party =>
      cases party with
      | play => exact (hpc ▸ hguard.1 hl : (PlayPc.lock n).HoldsLock).elim
      | data => exact .inr (.inl ⟨n, rfl, rfl⟩)
  | setStream n => simp [playStep, hpc] at hplay
  | checkSrcRdy n => exact .inr (.inr (.inl ⟨n, .inl rfl⟩))
  | start n => exact .inr (.inr (.inl ⟨n, .inr rfl⟩))
  | doAndWait n =>
    refine .inr (.inr (.inr ⟨n, rfl, ?_⟩))
    obtain ⟨-, hcall⟩ : s.Phase (.doAndWait n) := hpc ▸ hphase
    rw [playStep, hpc] at hplay
    cases hcaller : s.srcReadyCall.caller n with
    | idle => simp [hcaller, AsyncCall.step] at hplay
    | listening => simp [hcaller] at hplay
    | awaiting =>
      rw [hcaller] at hcall
      obtain ⟨hchecks, hacks, -⟩ | ⟨ack, -, ⟨hcompleting, -⟩ | ⟨-, hnotified⟩⟩ := hcall
      · exact ⟨hchecks, hacks⟩
      · obtain ⟨v, hv⟩ := hs.completing n hcompleting
        simp [notify, hcompleting, AsyncCall.step, hv] at hnotify
      · simp [hcaller, AsyncCall.step, hnotified] at hplay
    | resumed =>
      cases hresult : s.srcReadyCall.result <;> simp [hcaller, AsyncCall.step, hresult] at hplay
    | returned v => exact (hcaller ▸ hcall : s.CallPhase n (.returned v)).elim
    | panicked => exact (hcaller ▸ hcall : s.CallPhase n .panicked).elim

/-- The check has been given, and nobody has answered. -/
theorem play_waits_for_answer : ∃ s, machine.run new
      [.playbackTask ⟨true, true, [], false⟩ (.ok ()), .play, .play, .play, .play,
        .mediaCtrl (.ok ())] = some s ∧
    (s.play = .idle ∨ (∃ n, s.play = .lock n ∧ s.lock = some .data) ∨
      (∃ n, s.play = .checkSrcRdy n ∨ s.play = .start n) ∨
        ∃ n, s.play = .doAndWait n ∧ s.checks = n + 1 ∧ s.acks.length = n) := by
  have hC : machine.AllSteps Solicited new
      [.playbackTask ⟨true, true, [], false⟩ (.ok ()), .play, .play, .play, .play,
        .mediaCtrl (.ok ())] := by
    refine .cons (by simp [Solicited]) rfl <| .cons (by simp [Solicited]) rfl <|
      .cons (by simp [Solicited]) rfl <| .cons (by simp [Solicited]) rfl <|
        .cons (by simp [Solicited]) rfl <| .cons (by simp [Solicited]) rfl .nil
  exact ⟨_, rfl, play_waits_for hC rfl rfl rfl rfl⟩

end A2dpPlay

end Esp32A2dpPlayer
