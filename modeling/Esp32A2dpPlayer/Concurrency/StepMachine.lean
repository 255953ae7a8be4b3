import Mathlib.Data.List.Basic
import Mathlib.Data.List.Induction

/-!
# Machines with an executable step

The substrate for every concurrent component: a labelled transition system whose step is a
**partial function** of the state and the action. Interleaving lives in the actions — each
names the party that moves and what its environment answered — so a run is a list of actions
and a schedule is data that can be evaluated.

## What a proof uses

* `run_invariant` and `run_invariant_of_allSteps`: a property of the trace together with the
  state that holds at the start and survives each step holds after every run. The second form
  may also assume a condition on each step of the run, which is how an assumption about the
  schedule enters.
* `exists_quiescent`: if every step of a class of actions decreases a measure, some run of the
  class ends where none of its actions is enabled. This is how a *reachability* statement is
  proved without writing the schedule down.
-/

/-- A labelled transition system given by an executable partial step. -/
structure StepMachine (σ α : Type*) where
  /-- The successor under an action; `none` where the action is not enabled. -/
  step : σ → α → Option σ

namespace StepMachine

variable {σ α β : Type*} (M : StepMachine σ α)

/-! ### Runs -/

/-- The state after a list of actions; `none` if one of them is not enabled in its turn. -/
def run : σ → List α → Option σ
  | s, [] => some s
  | s, a :: as => (M.step s a).bind fun t ↦ run t as

@[simp] theorem run_nil (s : σ) : M.run s [] = some s := rfl

@[simp] theorem run_cons (s : σ) (a : α) (as : List α) :
    M.run s (a :: as) = (M.step s a).bind fun t ↦ M.run t as := rfl

theorem run_append (s : σ) (as bs : List α) :
    M.run s (as ++ bs) = (M.run s as).bind fun t ↦ M.run t bs := by
  induction as generalizing s with
  | nil => rfl
  | cons a as ih =>
    rw [List.cons_append, run_cons, run_cons, Option.bind_assoc]
    exact congrArg _ (funext fun t ↦ ih t)

theorem run_concat (s : σ) (as : List α) (a : α) :
    M.run s (as ++ [a]) = (M.run s as).bind fun t ↦ M.step t a := by
  rw [run_append]
  exact congrArg _ (funext fun t ↦ by simp)

theorem run_concat_eq_some_iff {s u : σ} {as : List α} {a : α} :
    M.run s (as ++ [a]) = some u ↔ ∃ t, M.run s as = some t ∧ M.step t a = some u := by
  rw [run_concat, Option.bind_eq_some_iff]

theorem run_append_eq_some_iff {s u : σ} {as bs : List α} :
    M.run s (as ++ bs) = some u ↔ ∃ t, M.run s as = some t ∧ M.run t bs = some u := by
  rw [run_append, Option.bind_eq_some_iff]

/-- What the steps of a run put out, in order. -/
def outputs (f : σ → α → Option β) : σ → List α → List β
  | _, [] => []
  | s, a :: as => (f s a).toList ++ (M.step s a).elim [] fun t ↦ outputs f t as

@[simp] theorem outputs_nil (f : σ → α → Option β) (s : σ) : M.outputs f s [] = [] := rfl

theorem outputs_cons (f : σ → α → Option β) (s : σ) (a : α) (as : List α) :
    M.outputs f s (a :: as) =
      (f s a).toList ++ (M.step s a).elim [] fun t ↦ M.outputs f t as := rfl

theorem outputs_concat (f : σ → α → Option β) {s t : σ} {as : List α}
    (h : M.run s as = some t) (a : α) :
    M.outputs f s (as ++ [a]) = M.outputs f s as ++ (f t a).toList := by
  induction as generalizing s with
  | nil =>
    cases h
    rw [List.nil_append, outputs_cons]
    cases M.step t a <;> simp
  | cons b as ih =>
    rw [run_cons, Option.bind_eq_some_iff] at h
    obtain ⟨u, hu, hrun⟩ := h
    rw [List.cons_append, outputs_cons, outputs_cons, hu, Option.elim_some, Option.elim_some,
      ih hrun, List.append_assoc]

/-! ### Invariants of runs -/

/-- Where a given action of a trace stands once the trace has grown by one step. -/
theorem concat_eq_append_cons {as as₁ as₂ : List α} {a b : α}
    (h : as ++ [a] = as₁ ++ b :: as₂) :
    (as = as₁ ∧ a = b) ∨ ∃ as₃, as₂ = as₃ ++ [a] ∧ as = as₁ ++ b :: as₃ := by
  rcases List.eq_nil_or_concat as₂ with rfl | ⟨as₃, c, rfl⟩
  · obtain ⟨rfl, hb⟩ := List.append_inj' h rfl
    exact Or.inl ⟨rfl, List.singleton_inj.1 hb⟩
  · rw [List.concat_eq_append, ← List.cons_append, ← List.append_assoc] at h
    obtain ⟨rfl, hc⟩ := List.append_inj' h rfl
    exact Or.inr ⟨as₃, by rw [List.concat_eq_append, List.singleton_inj.1 hc], rfl⟩

/-- Every step of the run `as` from `s` is taken in a state and under an action that meet
`C`. -/
def AllSteps (C : σ → α → Prop) (s : σ) (as : List α) : Prop :=
  ∀ as₁ a as₂ t, as = as₁ ++ a :: as₂ → M.run s as₁ = some t → C t a

variable {M} in
theorem AllSteps.nil {C : σ → α → Prop} {s : σ} : M.AllSteps C s [] := by
  intro as₁ a as₂ t h
  simp at h

variable {M} in
theorem AllSteps.cons {C : σ → α → Prop} {s t : σ} {a : α} {as : List α} (hC : C s a)
    (ht : M.step s a = some t) (h : M.AllSteps C t as) : M.AllSteps C s (a :: as) := by
  rintro (- | ⟨b, as₁⟩) a' as₂ u heq hu
  · cases heq
    rwa [← Option.some.inj hu]
  · cases heq
    rw [run_cons, ht, Option.bind_some] at hu
    exact h as₁ a' as₂ u rfl hu

theorem allSteps_congr {C D : σ → α → Prop} (h : ∀ s a, C s a ↔ D s a) {s : σ} {as : List α} :
    M.AllSteps C s as ↔ M.AllSteps D s as :=
  ⟨fun hC as₁ a as₂ t heq ht ↦ (h t a).1 (hC as₁ a as₂ t heq ht),
    fun hD as₁ a as₂ t heq ht ↦ (h t a).2 (hD as₁ a as₂ t heq ht)⟩

variable {M} in
theorem AllSteps.of_append {C : σ → α → Prop} {s : σ} {as bs : List α}
    (h : M.AllSteps C s (as ++ bs)) : M.AllSteps C s as := by
  rintro as₁ a as₂ t rfl ht
  exact h as₁ a (as₂ ++ bs) t (by simp) ht

variable {M} in
theorem allSteps_concat_iff {C : σ → α → Prop} {s t : σ} {as : List α} {a : α}
    (ht : M.run s as = some t) :
    M.AllSteps C s (as ++ [a]) ↔ M.AllSteps C s as ∧ C t a := by
  refine ⟨fun h ↦ ⟨fun as₁ b as₂ u heq ↦ h as₁ b (as₂ ++ [a]) u (by simp [heq]),
    h as a [] t rfl ht⟩, ?_⟩
  rintro ⟨h, hC⟩ as₁ b as₂ u heq hu
  obtain ⟨rfl, rfl⟩ | ⟨as₃, -, rfl⟩ := concat_eq_append_cons heq
  · rw [ht] at hu
    cases hu
    exact hC
  · exact h as₁ b as₃ u rfl hu

/-- A condition on the actions alone. -/
theorem allSteps_of_not_mem {s : σ} {as : List α} {a : α} (h : a ∉ as) :
    M.AllSteps (fun _ b ↦ b ≠ a) s as := by
  rintro as₁ b as₂ t rfl - rfl
  exact h (by simp)

variable {M} in
/-- Actions that meet the condition in every state can be added. -/
theorem AllSteps.append {C : σ → α → Prop} {s : σ} {as bs : List α} (h : M.AllSteps C s as)
    (hbs : ∀ b ∈ bs, ∀ t, C t b) : M.AllSteps C s (as ++ bs) := by
  intro as₁ a as₂ t heq ht
  obtain ⟨cs, -, rfl⟩ | ⟨cs, rfl, hcs⟩ := List.append_eq_append_iff.1 heq
  · exact hbs a (by simp) t
  · rcases cs with - | ⟨c, cs⟩
    · obtain rfl : a :: as₂ = bs := hcs
      exact hbs a List.mem_cons_self t
    · obtain ⟨rfl, rfl⟩ := List.cons.inj hcs
      exact h as₁ a cs t rfl ht

variable {M} in
theorem AllSteps.last {C : σ → α → Prop} {s t : σ} {as : List α} {a : α}
    (h : M.AllSteps C s (as ++ [a])) (ht : M.run s as = some t) : C t a :=
  h as a [] t rfl ht

/-- **The invariant rule.** A property of the trace and the state that holds at the start, and
is preserved by every step that meets `C`, holds after every run whose steps all meet `C`. -/
theorem run_invariant_of_allSteps {C : σ → α → Prop} {I : List α → σ → Prop} {s₀ : σ}
    (hinit : I [] s₀)
    (hstep : ∀ as s a t, M.run s₀ as = some s → I as s → C s a → M.step s a = some t →
      I (as ++ [a]) t) :
    ∀ {as s}, M.AllSteps C s₀ as → M.run s₀ as = some s → I as s := by
  intro as
  induction as using List.reverseRecOn with
  | nil =>
    intro s _ h
    rwa [← Option.some.inj h]
  | append_singleton as a ih =>
    intro u hC h
    obtain ⟨t, ht, hu⟩ := M.run_concat_eq_some_iff.1 h
    exact hstep as t a u ht (ih hC.of_append ht) (hC.last ht) hu

/-- The invariant rule with no condition on the steps. -/
theorem run_invariant {I : List α → σ → Prop} {s₀ : σ} (hinit : I [] s₀)
    (hstep : ∀ as s a t, M.run s₀ as = some s → I as s → M.step s a = some t →
      I (as ++ [a]) t)
    {as : List α} {s : σ} (h : M.run s₀ as = some s) : I as s :=
  M.run_invariant_of_allSteps (C := fun _ _ ↦ True) hinit
    (fun as s a t hs hI _ ↦ hstep as s a t hs hI) (fun _ _ _ _ _ _ ↦ trivial) h

/-! ### Running a class of actions until none is enabled -/

/-- **Quiescence.** If every step of the class `A` keeps `I` and decreases `μ`, then from any
state in `I` some run of actions in `A` ends in a state where no action of `A` is enabled. -/
theorem exists_quiescent {A : α → Prop} {I : σ → Prop} (μ : σ → ℕ)
    (hI : ∀ s a t, A a → I s → M.step s a = some t → I t)
    (hμ : ∀ s a t, A a → I s → M.step s a = some t → μ t < μ s) {s : σ} (hs : I s) :
    ∃ as t, (∀ a ∈ as, A a) ∧ M.run s as = some t ∧ I t ∧ ∀ a, A a → M.step t a = none := by
  induction h : μ s using Nat.strongRecOn generalizing s with
  | _ n ih =>
    subst h
    by_cases hq : ∀ a, A a → M.step s a = none
    · exact ⟨[], s, by simp, rfl, hs, hq⟩
    · simp only [not_forall] at hq
      obtain ⟨a, ha, hne⟩ := hq
      obtain ⟨t, ht⟩ := Option.ne_none_iff_exists'.1 hne
      obtain ⟨as, u, has, hrun, hIu, hqu⟩ :=
        ih (μ t) (hμ s a t ha hs ht) (hI s a t ha hs ht) rfl
      refine ⟨a :: as, u, ?_, ?_, hIu, hqu⟩
      · rintro b (- | ⟨-, hb⟩)
        · exact ha
        · exact has b hb
      · rw [run_cons, ht, Option.bind_some, hrun]

end StepMachine
