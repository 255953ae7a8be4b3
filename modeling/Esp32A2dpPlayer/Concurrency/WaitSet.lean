import Mathlib.Logic.Function.Basic

/-!
# Edge-triggered wake-ups

The common core of an event with listeners and of a condition variable: a party registers, a
notification wakes **everyone registered before it and no one registered after it**, and a
party that has been woken goes on by itself. A condition variable may also wake a party without
a notification.

The state is a status per party. Nothing is remembered about a notification beyond the parties
it woke, which is exactly what makes these wake-ups easy to lose.
-/

/-- Where a party stands with respect to a wake-up. -/
inductive WaitStatus where
  /-- Not registered. -/
  | idle
  /-- Registered, and no notification since. -/
  | waiting
  /-- Registered and woken. -/
  | notified
  deriving DecidableEq

theorem WaitStatus.eq_waiting {w : WaitStatus} (hidle : w ≠ .idle) (hnotified : w ≠ .notified) :
    w = .waiting := by
  cases w with
  | idle => exact absurd rfl hidle
  | waiting => rfl
  | notified => exact absurd rfl hnotified

/-- The parties of an event or a condition variable. -/
structure WaitSet (ι : Type*) where
  status : ι → WaitStatus

namespace WaitSet

variable {ι : Type*}

/-- Nobody is registered. -/
def empty : WaitSet ι := ⟨fun _ ↦ .idle⟩

/-- Wake every registered party. -/
def notifyAll (w : WaitSet ι) : WaitSet ι :=
  ⟨fun i ↦ match w.status i with
    | .idle => .idle
    | .waiting => .notified
    | .notified => .notified⟩

@[simp] theorem empty_status (i : ι) : (empty : WaitSet ι).status i = .idle := rfl

theorem notifyAll_status_ne_waiting (w : WaitSet ι) (i : ι) :
    w.notifyAll.status i ≠ .waiting := by
  rw [notifyAll]
  dsimp only
  split <;> simp

@[simp] theorem notifyAll_status_eq_notified_iff {w : WaitSet ι} {i : ι} :
    w.notifyAll.status i = .notified ↔ w.status i ≠ .idle := by
  rw [notifyAll]
  dsimp only
  split <;> simp_all

@[simp] theorem notifyAll_status_eq_idle_iff {w : WaitSet ι} {i : ι} :
    w.notifyAll.status i = .idle ↔ w.status i = .idle := by
  rw [notifyAll]
  dsimp only
  split <;> simp_all

variable [DecidableEq ι]

/-- Register a party. -/
def register (w : WaitSet ι) (i : ι) : WaitSet ι := ⟨Function.update w.status i .waiting⟩

/-- Wake one party without a notification. -/
def wake (w : WaitSet ι) (i : ι) : WaitSet ι := ⟨Function.update w.status i .notified⟩

/-- Drop the registration of a party. -/
def remove (w : WaitSet ι) (i : ι) : WaitSet ι := ⟨Function.update w.status i .idle⟩

theorem register_status (w : WaitSet ι) (i j : ι) :
    (w.register i).status j = if j = i then .waiting else w.status j :=
  Function.update_apply ..

theorem wake_status (w : WaitSet ι) (i j : ι) :
    (w.wake i).status j = if j = i then .notified else w.status j :=
  Function.update_apply ..

theorem remove_status (w : WaitSet ι) (i j : ι) :
    (w.remove i).status j = if j = i then .idle else w.status j :=
  Function.update_apply ..

end WaitSet
