import Esp32A2dpPlayer.Concurrency.StepMachine
import Mathlib.Algebra.GroupWithZero.Nat

/-!
# Reachability by a class of actions

What lies between two states of a machine without naming the run: `Reaches A s t` says that some
run of actions in the class `A` leads from `s` to `t`. It is what a machine that **contains**
another one records about its part, because the part takes its own steps between steps of the
whole that do not concern it.

* `Reaches.invariant` is the invariant rule.
* `Reaches.map` carries a path through a map of states under which every step is a path of the
  other machine. A part is followed in the whole, and a machine in a larger environment, by the
  same rule.
* `run_length_le` bounds the length of a run by what a measure loses and what the actions cost.
-/

namespace StepMachine

variable {σ τ α β : Type*} {M : StepMachine σ α} {N : StepMachine τ β} {A : α → Prop}
  {B : β → Prop} {s t u : σ}

/-- Some run of actions in `A` leads from `s` to `t`. -/
def Reaches (M : StepMachine σ α) (A : α → Prop) (s t : σ) : Prop :=
  ∃ as, (∀ a ∈ as, A a) ∧ M.run s as = some t

theorem Reaches.refl (s : σ) : M.Reaches A s s := ⟨[], by simp, rfl⟩

theorem Reaches.trans (h : M.Reaches A s t) (h' : M.Reaches A t u) : M.Reaches A s u := by
  obtain ⟨as, has, hrun⟩ := h
  obtain ⟨bs, hbs, hrun'⟩ := h'
  refine ⟨as ++ bs, ?_, M.run_append_eq_some_iff.2 ⟨t, hrun, hrun'⟩⟩
  intro a ha
  exact (List.mem_append.1 ha).elim (has a) (hbs a)

theorem Reaches.single {a : α} (ha : A a) (h : M.step s a = some t) : M.Reaches A s t :=
  ⟨[a], by simpa using ha, by simpa using h⟩

theorem Reaches.tail {a : α} (h : M.Reaches A s t) (ha : A a) (hstep : M.step t a = some u) :
    M.Reaches A s u :=
  h.trans (.single ha hstep)

theorem Reaches.of_run {as : List α} (h : M.run s as = some t) (has : ∀ a ∈ as, A a) :
    M.Reaches A s t :=
  ⟨as, has, h⟩

/-- What every step in the class preserves holds wherever the class leads. -/
theorem Reaches.invariant {I : σ → Prop} (h : M.Reaches A s t)
    (hstep : ∀ s a t, A a → I s → M.step s a = some t → I t) (hs : I s) : I t := by
  obtain ⟨as, has, hrun⟩ := h
  exact M.run_invariant_of_allSteps (C := fun _ a ↦ A a) (I := fun _ s ↦ I s) hs
    (fun _ s a t _ hI ha ht ↦ hstep s a t ha hI ht)
    (fun as₁ a as₂ _ heq _ ↦ has a (by simp [heq])) hrun

/-- **A path is carried by a map** of states under which every step is a path. -/
theorem Reaches.map (f : σ → τ)
    (hstep : ∀ s a t, A a → M.step s a = some t → N.Reaches B (f s) (f t))
    (h : M.Reaches A s t) : N.Reaches B (f s) (f t) :=
  h.invariant (I := fun t ↦ N.Reaches B (f s) (f t))
    (fun t a u ha ht hu ↦ ht.trans (hstep t a u ha hu)) (.refl _)

/-- **Runs are as long as their measure allows.** Under an invariant, each step takes one unit
from the measure and may put back what its action costs. -/
theorem run_length_le {I : σ → Prop} (μ : σ → ℕ) (cost : α → ℕ)
    (hI : ∀ s a t, I s → M.step s a = some t → I t)
    (hstep : ∀ s a t, I s → M.step s a = some t → μ t + 1 ≤ μ s + cost a) (hs : I s)
    {as : List α} (h : M.run s as = some t) : μ t + as.length ≤ μ s + (as.map cost).sum := by
  induction as generalizing s with
  | nil =>
    cases h
    exact Nat.le_refl _
  | cons a as ih =>
    obtain ⟨u, hu, hrun⟩ := Option.bind_eq_some_iff.1 h
    have hfirst := hstep s a u hs hu
    have hrest := ih (hI s a u hs hu) hrun
    rw [List.length_cons, List.map_cons, List.sum_cons]
    omega

end StepMachine
