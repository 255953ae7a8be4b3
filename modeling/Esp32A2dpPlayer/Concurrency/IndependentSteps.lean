import Mathlib.Data.List.Basic

/-!
# Independent steps

A partial step function folded over a list of actions that come in kinds. Where actions of
different kinds commute (`Independent`), a rearrangement that keeps the order within each kind
does not change the fold, and in particular not whether it fails: the first action of one list
can be moved to the front of the other, past actions of other kinds only.
-/

namespace IndependentSteps

variable {σ α κ : Type*} {step : σ → α → Option σ} {kind : α → κ}

variable (step kind) in
/-- Actions of different kinds commute. -/
def Independent : Prop :=
  ∀ s a b, kind a ≠ kind b →
    (step s a).bind (fun t ↦ step t b) = (step s b).bind fun t ↦ step t a

variable [DecidableEq κ]

variable (kind) in
/-- The same actions of each kind in the same order. The two lists are then permutations of one
another. -/
def SameOrder (as bs : List α) : Prop :=
  ∀ k, as.filter (fun a ↦ kind a = k) = bs.filter fun a ↦ kind a = k

omit [DecidableEq κ] in
/-- An action moves to the front past actions of other kinds. -/
theorem foldlM_move (hind : Independent step kind) {a : α} {as : List α}
    (h : ∀ b ∈ as, kind b ≠ kind a) (bs : List α) (s : σ) :
    (as ++ a :: bs).foldlM step s = (a :: (as ++ bs)).foldlM step s := by
  induction as generalizing s with
  | nil => rfl
  | cons b as ih =>
    have hb := hind s a b (h b List.mem_cons_self).symm
    have hrest (t : σ) := ih (fun c hc ↦ h c (List.mem_cons_of_mem b hc)) t
    calc (b :: as ++ a :: bs).foldlM step s
        = (step s b).bind fun t ↦ (a :: (as ++ bs)).foldlM step t := by
          rw [List.cons_append, List.foldlM_cons]
          exact congrArg _ (funext hrest)
      _ = ((step s b).bind fun t ↦ step t a).bind fun t ↦ (as ++ bs).foldlM step t := by
          rw [Option.bind_assoc]
          rfl
      _ = ((step s a).bind fun t ↦ step t b).bind fun t ↦ (as ++ bs).foldlM step t := by
          rw [hb]
      _ = (a :: (b :: as ++ bs)).foldlM step s := by
          rw [Option.bind_assoc]
          rfl

theorem SameOrder.eq_nil {bs : List α} (h : SameOrder kind [] bs) : bs = [] := by
  rcases bs with - | ⟨b, bs⟩
  · rfl
  · have hb := h (kind b)
    simp at hb

/-- Where the first action of one list stands in the other. -/
theorem SameOrder.exists_split {a : α} {as bs : List α} (h : SameOrder kind (a :: as) bs) :
    ∃ pre post, bs = pre ++ a :: post ∧ (∀ b ∈ pre, kind b ≠ kind a) ∧
      SameOrder kind as (pre ++ post) := by
  have ha := h (kind a)
  rw [List.filter_cons_of_pos (by simp)] at ha
  obtain ⟨pre, post, rfl, hpre, -, hpost⟩ := List.filter_eq_cons_iff.1 ha.symm
  have hother : ∀ b ∈ pre, kind b ≠ kind a := fun b hb ↦ by simpa using hpre b hb
  refine ⟨pre, post, rfl, hother, fun k ↦ ?_⟩
  by_cases hk : kind a = k
  · subst hk
    have hnil : pre.filter (fun b ↦ kind b = kind a) = [] :=
      List.filter_eq_nil_iff.2 fun b hb ↦ by simpa using hother b hb
    rw [List.filter_append, hnil, List.nil_append, hpost]
  · have hrest := h k
    rwa [List.filter_cons_of_neg (by simpa using hk), List.filter_append,
      List.filter_cons_of_neg (by simpa using hk), ← List.filter_append] at hrest

/-- **The order across kinds does not matter.** -/
theorem foldlM_eq_of_sameOrder (hind : Independent step kind) {as bs : List α}
    (h : SameOrder kind as bs) (s : σ) : as.foldlM step s = bs.foldlM step s := by
  induction as generalizing bs s with
  | nil => rw [h.eq_nil]
  | cons a as ih =>
    obtain ⟨pre, post, rfl, hpre, hrest⟩ := h.exists_split
    rw [foldlM_move hind hpre, List.foldlM_cons, List.foldlM_cons]
    exact congrArg _ (funext fun t ↦ ih hrest t)

end IndependentSteps
