import Esp32A2dpPlayer.Bluetooth.AsyncCall

/-!
# `AsyncCall::wait` and completions that come early

One `wait` call and any number of completions. The slot keeps a result until it is taken, but
the event wakes only who is registered, and `wait` registers without a look at the slot. A
completion that is over by then leaves its result in the slot and nobody to wake the call.

`wait_loses_nothing_iff` says that this is the only way to lose one: the call may register while
the slot is empty, and also between the two steps of a completion, whose `notify` is yet to
come.
-/

namespace Esp32A2dpPlayer

namespace AsyncCall

variable {κ T : Type*}

/-- Every completion that has begun is over, a result is in the slot, and the call is blocked on
a listener that has not been notified. -/
def Lost (s : AsyncCall Unit κ T) : Prop :=
  (∀ k v, s.completer k ≠ .replaced v) ∧ s.result.isSome ∧
    s.caller () = .awaiting ∧ s.event.status () = .waiting

/-- `wait` registers while the slot is empty or a `notify` is yet to come. -/
def NotTooLate (s : AsyncCall Unit κ T) : AsyncAction Unit κ T → Prop
  | .wait _ => s.result = none ∨ ∃ k v, s.completer k = .replaced v
  | _ => True

/-- A result that the call has not been woken for has its `notify` still to come. -/
def WakeUpPending (s : AsyncCall Unit κ T) : Prop :=
  s.event.status () = .waiting → s.result.isSome → ∃ k v, s.completer k = .replaced v

theorem WakeUpPending.not_lost {s : AsyncCall Unit κ T} (h : s.WakeUpPending) : ¬ s.Lost := by
  rintro ⟨hdone, hresult, -, hwaiting⟩
  obtain ⟨k, v, hk⟩ := h hwaiting hresult
  exact hdone k v hk

variable [DecidableEq κ] {s t : AsyncCall Unit κ T} {a : AsyncAction Unit κ T}
  {as : List (AsyncAction Unit κ T)}

/-- The step lemma. -/
theorem wakeUpPending_of_step (hs : s.WakeUpPending) (hC : NotTooLate s a) (ha : a ≠ .listen ())
    (h : s.step a = some t) : t.WakeUpPending := by
  intro hwaiting hresult
  cases a with
  | listen i => exact absurd rfl ha
  | runF i =>
    obtain ⟨-, rfl⟩ := step_runF_iff.1 h
    exact hs hwaiting hresult
  | wait i =>
    obtain ⟨-, rfl⟩ := step_wait_iff.1 h
    rcases hC with hnone | hpending
    · rw [hnone] at hresult
      cases hresult
    · exact hpending
  | resume i =>
    obtain ⟨-, rfl⟩ := step_resume_iff.1 h
    simp [WaitSet.remove_status] at hwaiting
  | take i =>
    obtain ⟨hi, ⟨v, -, rfl⟩ | ⟨-, rfl⟩⟩ := step_take_iff.1 h
    · cases hresult
    · exact hs hwaiting hresult
  | replace k v =>
    obtain ⟨-, rfl⟩ := step_replace_iff.1 h
    exact ⟨k, v, Function.update_self ..⟩
  | notify k =>
    obtain ⟨v, -, rfl⟩ := step_notify_iff.1 h
    exact absurd hwaiting (WaitSet.notifyAll_status_ne_waiting _ _)

/-- A call that registers too late is lost at once. -/
theorem lost_of_tooLate (hC : ¬ NotTooLate s a) (h : s.step a = some t) : t.Lost := by
  cases a with
  | wait i =>
    obtain ⟨-, rfl⟩ := step_wait_iff.1 h
    rw [NotTooLate, not_or, not_exists] at hC
    exact ⟨fun k v hk ↦ hC.2 k ⟨v, hk⟩, Option.isSome_iff_ne_none.2 hC.1, rfl, rfl⟩
  | listen _ | runF _ | resume _ | take _ | replace _ _ | notify _ => exact absurd trivial hC

/-- **When `wait` loses no completion.** In any run of one `wait` call and any completions, no
state is reached in which every completion that has begun is over, a result is stored and the
call is blocked unnotified, if and only if the call registers while the slot is empty or while a
completion is between its two steps. -/
theorem wait_loses_nothing_iff (hwait : .listen () ∉ as)
    (h : (machine Unit κ T).run new as = some s) :
    (∀ as₁ as₂ t, as = as₁ ++ as₂ → (machine Unit κ T).run new as₁ = some t → ¬ t.Lost) ↔
      (machine Unit κ T).AllSteps NotTooLate new as := by
  constructor
  · rintro hsafe as₁ a as₂ t rfl ht
    obtain ⟨t', ht', hrest⟩ := (machine Unit κ T).run_append_eq_some_iff.1 h
    obtain ⟨u, hu, -⟩ := Option.bind_eq_some_iff.1 hrest
    rw [ht] at ht'
    cases ht'
    by_contra hlate
    have hrun : (machine Unit κ T).run new (as₁ ++ [a]) = some u :=
      (machine Unit κ T).run_concat_eq_some_iff.2 ⟨t, ht, hu⟩
    exact hsafe (as₁ ++ [a]) as₂ u (by simp) hrun (lost_of_tooLate hlate hu)
  · rintro hC as₁ as₂ t rfl ht
    have hno : (machine Unit κ T).AllSteps (fun s a ↦ NotTooLate s a ∧ a ≠ .listen ()) new as₁ := by
      rintro bs₁ a bs₂ u rfl hu
      refine ⟨hC.of_append bs₁ a bs₂ u rfl hu, ?_⟩
      rintro rfl
      exact hwait (by simp)
    have hinv : t.WakeUpPending := by
      refine (machine Unit κ T).run_invariant_of_allSteps (I := fun _ u ↦ u.WakeUpPending) ?_ ?_
        hno ht
      · intro hwaiting
        cases hwaiting
      · intro bs u a u' _ hI hC' hstep
        exact wakeUpPending_of_step hI hC'.1 hC'.2 hstep
    exact hinv.not_lost

/-- The call registers first. -/
def registeredRun : List (AsyncAction Unit ℕ ℕ) :=
  [.wait (), .replace 0 7, .notify 0, .resume (), .take ()]

theorem wait_loses_nothing_registered : ∃ s, (machine Unit ℕ ℕ).run new registeredRun = some s ∧
    s.caller () = .returned 7 ∧ ∀ as₁ as₂ t, registeredRun = as₁ ++ as₂ →
      (machine Unit ℕ ℕ).run new as₁ = some t → ¬ t.Lost := by
  have hC : (machine Unit ℕ ℕ).AllSteps NotTooLate new registeredRun :=
    .cons (Or.inl rfl) rfl <| .cons trivial rfl <| .cons trivial rfl <|
      .cons trivial rfl <| .cons trivial rfl .nil
  have hwait : .listen () ∉ registeredRun := by simp [registeredRun]
  exact ⟨_, rfl, rfl, (wait_loses_nothing_iff hwait rfl).2 hC⟩

/-- The completion is over before the call registers. -/
theorem wait_loses_earlyCompletion : ¬ ∀ (as : List (AsyncAction Unit ℕ ℕ))
    (s : AsyncCall Unit ℕ ℕ), .listen () ∉ as → (machine Unit ℕ ℕ).run new as = some s →
      ¬ s.Lost := by
  intro h
  refine h [.replace 0 7, .notify 0, .wait ()] _ (by simp) rfl ⟨?_, rfl, rfl, rfl⟩
  intro k v
  rcases eq_or_ne k 0 with rfl | hne <;> simp [new, *]

end AsyncCall

end Esp32A2dpPlayer
