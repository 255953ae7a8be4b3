import Mathlib.Algebra.BigOperators.Group.List.Basic
import Mathlib.Algebra.GroupWithZero.WithZero
import Mathlib.Data.List.Dedup

/-!
# Updates of which the last one wins

Updates compose in the order of time: `x * y` is `x` and then `y`. An update that writes some
fields of a record and leaves the others is undone by whatever comes after it, so that writing it
twice is writing it the second time: `x * y * x = y * x`. Monoids with this law are right regular
bands, and the law alone is enough to drop all but the last occurrence of each update from a
sequence (`prod_map_dedup`).

An update that may fail is one in `WithZero M`, where zero is the failure. Zero absorbs, so that a
sequence fails if one of its updates does, and the law carries over (`LastWins.withZero`).
-/

namespace Updates

variable {M : Type*} [Monoid M]

/-- Of two writes of one update only the second one counts. -/
def LastWins (M : Type*) [Monoid M] : Prop := ∀ x y : M, x * y * x = y * x

theorem LastWins.mul_self (h : LastWins M) (x : M) : x * x = x := by simpa using h x 1

/-- An update that comes again later need not be made now. -/
theorem LastWins.mul_prod_of_mem (h : LastWins M) {x : M} {l : List M} (hx : x ∈ l) :
    x * l.prod = l.prod := by
  induction l with
  | nil => cases hx
  | cons y l ih =>
    rw [List.prod_cons]
    obtain rfl | hx := List.mem_cons.1 hx
    · rw [← mul_assoc, h.mul_self]
    · calc x * (y * l.prod) = x * y * (x * l.prod) := by rw [ih hx, mul_assoc]
        _ = x * y * x * l.prod := (mul_assoc ..).symm
        _ = y * (x * l.prod) := by rw [h, mul_assoc]
        _ = y * l.prod := by rw [ih hx]

/-- **Only the last occurrences count.** -/
theorem LastWins.prod_map_dedup {α : Type*} [DecidableEq α] (h : LastWins M) (f : α → M)
    (l : List α) : (l.dedup.map f).prod = (l.map f).prod := by
  induction l with
  | nil => rfl
  | cons a l ih =>
    rw [List.map_cons, List.prod_cons]
    by_cases ha : a ∈ l
    · rw [List.dedup_cons_of_mem ha, ih, h.mul_prod_of_mem (List.mem_map_of_mem ha)]
    · rw [List.dedup_cons_of_notMem ha, List.map_cons, List.prod_cons, ih]

theorem LastWins.withZero (h : LastWins M) : LastWins (WithZero M) := by
  intro x y
  cases x using WithZero.recZeroCoe with
  | zero => rw [mul_zero, mul_zero]
  | coe x =>
    cases y using WithZero.recZeroCoe with
    | zero => rw [mul_zero, zero_mul]
    | coe y => exact congrArg _ (h x y)

/-! ### Updates of a state -/

section Act

variable {σ α : Type*} (act : M → σ → σ)

/-- The state that an update leads to, if it does not fail. -/
def run (x : WithZero M) (s : σ) : Option σ := WithZero.recZeroCoe none (fun x ↦ some (act x s)) x

omit [Monoid M] in
@[simp] theorem run_zero (s : σ) : run act 0 s = none := rfl

omit [Monoid M] in
@[simp] theorem run_coe (x : M) (s : σ) : run act x s = some (act x s) := rfl

variable {act} (hone : ∀ s, act 1 s = s) (hmul : ∀ x y s, act (x * y) s = act y (act x s))

include hmul in
theorem run_mul (x y : WithZero M) (s : σ) : run act (x * y) s = (run act x s).bind (run act y) := by
  cases x using WithZero.recZeroCoe with
  | zero => rw [zero_mul, run_zero, Option.bind_none]
  | coe x =>
    cases y using WithZero.recZeroCoe with
    | zero => rw [mul_zero, run_zero, run_coe, Option.bind_some, run_zero]
    | coe y =>
      rw [← WithZero.coe_mul, run_coe, run_coe, Option.bind_some, run_coe, hmul]

include hone hmul in
/-- **A sequence of updates is one update.** -/
theorem foldlM_eq_run {step : σ → α → Option σ} {f : α → WithZero M}
    (hstep : ∀ s a, step s a = run act (f a) s) (l : List α) (s : σ) :
    l.foldlM step s = run act (l.map f).prod s := by
  induction l generalizing s with
  | nil => exact congrArg some (hone s).symm
  | cons a l ih =>
    rw [List.foldlM_cons, List.map_cons, List.prod_cons, run_mul hmul, hstep]
    exact congrArg _ (funext ih)

end Act

end Updates
