import Esp32A2dpPlayer.Concurrency.StepMachine

/-!
# Two machines and what is seen of a run

One machine is related to another one by what its steps put out. A step that puts out nothing is
silent, and the other machine does not move with it.

* `run_of_simulation` follows a run: what it puts out is a run of the other machine.
* `run_of_realization` is the other direction: every run of the other machine is put out by one.
* `run_of_projection` is the first rule for a machine that has the other one as a part.
-/

namespace StepMachine

variable {σ τ α β : Type*} {M : StepMachine σ α} {N : StepMachine τ β} {f : σ → α → Option β}
  {R : σ → τ → Prop} {s s' : σ} {t t' : τ} {as : List α} {bs : List β}

theorem outputs_append (f : σ → α → Option β) (h : M.run s as = some s') (as' : List α) :
    M.outputs f s (as ++ as') = M.outputs f s as ++ M.outputs f s' as' := by
  induction as generalizing s with
  | nil =>
    cases h
    rfl
  | cons a as ih =>
    obtain ⟨u, hu, hrun⟩ := Option.bind_eq_some_iff.1 h
    rw [List.cons_append, outputs_cons, outputs_cons, hu, Option.elim_some, Option.elim_some,
      ih hrun, List.append_assoc]

/-- What is seen of the actions alone is read off the trace. -/
theorem outputs_eq_filterMap (g : α → Option β) (h : M.run s as = some s') :
    M.outputs (fun _ a ↦ g a) s as = as.filterMap g := by
  induction as generalizing s with
  | nil => rfl
  | cons a as ih =>
    obtain ⟨u, hu, hrun⟩ := Option.bind_eq_some_iff.1 h
    rw [outputs_cons, hu, Option.elim_some, ih hrun, List.filterMap_cons]
    cases g a <;> rfl

/-- A run of silent steps puts out nothing. -/
theorem outputs_eq_nil {A : α → Prop}
    (hstep : ∀ s a s', A a → M.step s a = some s' → f s a = none) (has : ∀ a ∈ as, A a)
    (h : M.run s as = some s') : M.outputs f s as = [] := by
  induction as generalizing s with
  | nil => rfl
  | cons a as ih =>
    obtain ⟨u, hu, hrun⟩ := Option.bind_eq_some_iff.1 h
    rw [List.forall_mem_cons] at has
    rw [outputs_cons, hu, Option.elim_some, ih has.2 hrun, hstep s a u has.1 hu]
    rfl

/-- An action in `A` stands in the trace behind an output in `B`. -/
def AfterOutput (M : StepMachine σ α) (f : σ → α → Option β) (B : β → Prop) (A : α → Prop) (s : σ)
    (as : List α) : Prop :=
  ∃ as₁ a as₂, as = as₁ ++ a :: as₂ ∧ A a ∧ ∃ b ∈ M.outputs f s as₁, B b

theorem AfterOutput.append {B : β → Prop} {A : α → Prop} (h : M.AfterOutput f B A s as)
    (bs : List α) : M.AfterOutput f B A s (as ++ bs) := by
  obtain ⟨as₁, a, as₂, rfl, ha, hout⟩ := h
  exact ⟨as₁, a, as₂ ++ bs, by simp, ha, hout⟩

theorem AfterOutput.concat {B : β → Prop} {A : α → Prop} {a : α} {b : β} (ha : A a)
    (hb : b ∈ M.outputs f s as) (hB : B b) : M.AfterOutput f B A s (as ++ [a]) :=
  ⟨as, a, [], rfl, ha, b, hb, hB⟩

/-- **Simulation.** Where each step puts out a run of the other machine, the whole run does. -/
theorem run_of_simulation
    (hstep : ∀ s a s' t, R s t → M.step s a = some s' →
      ∃ t', N.run t (f s a).toList = some t' ∧ R s' t')
    (hR : R s t) (h : M.run s as = some s') :
    ∃ t', N.run t (M.outputs f s as) = some t' ∧ R s' t' := by
  induction as generalizing s t with
  | nil =>
    cases h
    exact ⟨t, rfl, hR⟩
  | cons a as ih =>
    obtain ⟨u, hu, hrun⟩ := Option.bind_eq_some_iff.1 h
    obtain ⟨v, hv, huv⟩ := hstep s a u t hR hu
    obtain ⟨t', ht', hR'⟩ := ih huv hrun
    refine ⟨t', ?_, hR'⟩
    rw [outputs_cons, hu, Option.elim_some]
    exact N.run_append_eq_some_iff.2 ⟨v, hv, ht'⟩

/-- **Realization.** Where each step of the other machine is put out by some run, each of its
runs is. -/
theorem run_of_realization
    (hstep : ∀ s t b t', R s t → N.step t b = some t' →
      ∃ as s', M.run s as = some s' ∧ M.outputs f s as = [b] ∧ R s' t')
    (hR : R s t) (h : N.run t bs = some t') :
    ∃ as s', M.run s as = some s' ∧ M.outputs f s as = bs ∧ R s' t' := by
  induction bs generalizing s t with
  | nil =>
    cases h
    exact ⟨[], s, rfl, rfl, hR⟩
  | cons b bs ih =>
    obtain ⟨v, hv, hrun⟩ := Option.bind_eq_some_iff.1 h
    obtain ⟨as, u, hu, has, huv⟩ := hstep s t b v hR hv
    obtain ⟨as', s', hs', has', hR'⟩ := ih huv hrun
    refine ⟨as ++ as', s', M.run_append_eq_some_iff.2 ⟨u, hu, hs'⟩, ?_, hR'⟩
    rw [outputs_append f hu, has, has']
    rfl

/-- **Projection.** A part of a machine runs as the steps of the whole say. -/
theorem run_of_projection (g : σ → τ)
    (hstep : ∀ s a s', M.step s a = some s' → N.run (g s) (f s a).toList = some (g s'))
    (h : M.run s as = some s') : N.run (g s) (M.outputs f s as) = some (g s') := by
  obtain ⟨t, ht, rfl⟩ := run_of_simulation (R := fun s t ↦ t = g s) (f := f)
    (fun s a s' t hR hs ↦ ⟨g s', hR ▸ hstep s a s' hs, rfl⟩) rfl h
  exact ht

end StepMachine
