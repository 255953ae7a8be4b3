import Esp32A2dpPlayer.Concurrency.StepMachine
import Esp32A2dpPlayer.Concurrency.WaitSet

/-!
# `AsyncCall`

`AsyncCall<T>` of `bluetooth_hal.rs` turns a callback into an awaitable call: one result slot
behind a mutex and one event. `do_and_wait` registers a listener, runs `f`, awaits the listener
and takes the slot; `wait` does the same without `f`; `complete` replaces the slot and notifies
everybody.

The machine runs any number of calls `i : ι` and completions `k : κ`, each of them once. A step
is what happens between two points where another task can run: the slot is behind a mutex, so
`replace` and `take` are one step each, and `complete` is the two steps `replace` and `notify`.
-/

namespace Esp32A2dpPlayer

/-- Where a `wait` or `do_and_wait` call stands. -/
inductive CallerPc (T : Type*) where
  /-- Not called yet. -/
  | idle
  /-- The listener is registered, `f` has not started. -/
  | listening
  /-- At `listener.await`. -/
  | awaiting
  /-- Past the await, before the slot is taken. -/
  | resumed
  | returned (v : T)
  /-- `take().unwrap()` met an empty slot. -/
  | panicked

/-- Where a `complete` call stands. -/
inductive CompleterPc (T : Type*) where
  | idle
  /-- The slot has been replaced, the event has not been notified. -/
  | replaced (v : T)
  | returned (v : T)

/-- One `AsyncCall` with its callers and completers. -/
structure AsyncCall (ι κ T : Type*) where
  result : Option T
  event : WaitSet ι
  caller : ι → CallerPc T
  completer : κ → CompleterPc T

/-- The steps of the calls. -/
inductive AsyncAction (ι κ T : Type*) where
  /-- `do_and_wait`: `let listener = self.event.listen()`. -/
  | listen (i : ι)
  /-- `do_and_wait`: `f()`. -/
  | runF (i : ι)
  /-- `wait`: `self.event.listen()`, awaited at once. -/
  | wait (i : ι)
  /-- The await of a notified listener returns. -/
  | resume (i : ι)
  /-- `self.result.lock().unwrap().take().unwrap()`. -/
  | take (i : ι)
  /-- `complete`: `self.result.lock().unwrap().replace(result)`. -/
  | replace (k : κ) (v : T)
  /-- `complete`: `self.event.notify(usize::MAX)`. -/
  | notify (k : κ)

namespace AsyncCall

variable {ι κ T : Type*}

/-- `AsyncCall::new`, nobody having called yet. -/
def new : AsyncCall ι κ T where
  result := none
  event := .empty
  caller _ := .idle
  completer _ := .idle

variable [DecidableEq ι] [DecidableEq κ]

/-- One step of a call or a completion. -/
def step (s : AsyncCall ι κ T) : AsyncAction ι κ T → Option (AsyncCall ι κ T)
  | .listen i =>
    match s.caller i with
    | .idle => some { s with
        event := s.event.register i
        caller := Function.update s.caller i .listening }
    | _ => none
  | .runF i =>
    match s.caller i with
    | .listening => some { s with caller := Function.update s.caller i .awaiting }
    | _ => none
  | .wait i =>
    match s.caller i with
    | .idle => some { s with
        event := s.event.register i
        caller := Function.update s.caller i .awaiting }
    | _ => none
  | .resume i =>
    match s.caller i, s.event.status i with
    | .awaiting, .notified => some { s with
        event := s.event.remove i
        caller := Function.update s.caller i .resumed }
    | _, _ => none
  | .take i =>
    match s.caller i, s.result with
    | .resumed, some v => some { s with
        result := none
        caller := Function.update s.caller i (.returned v) }
    | .resumed, none => some { s with caller := Function.update s.caller i .panicked }
    | _, _ => none
  | .replace k v =>
    match s.completer k with
    | .idle => some { s with
        result := some v
        completer := Function.update s.completer k (.replaced v) }
    | _ => none
  | .notify k =>
    match s.completer k with
    | .replaced v => some { s with
        event := s.event.notifyAll
        completer := Function.update s.completer k (.returned v) }
    | _ => none

/-- The calls as a machine. -/
def machine (ι κ T : Type*) [DecidableEq ι] [DecidableEq κ] :
    StepMachine (AsyncCall ι κ T) (AsyncAction ι κ T) :=
  ⟨step⟩

variable {s t : AsyncCall ι κ T} {i : ι} {k : κ} {v : T}

/-! ### What a step does -/

theorem step_listen_iff : s.step (.listen i) = some t ↔ s.caller i = .idle ∧
    t = { s with
      event := s.event.register i
      caller := Function.update s.caller i .listening } := by
  rw [step]
  split <;> simp_all [eq_comm]

theorem step_runF_iff : s.step (.runF i) = some t ↔ s.caller i = .listening ∧
    t = { s with caller := Function.update s.caller i .awaiting } := by
  rw [step]
  split <;> simp_all [eq_comm]

theorem step_wait_iff : s.step (.wait i) = some t ↔ s.caller i = .idle ∧
    t = { s with
      event := s.event.register i
      caller := Function.update s.caller i .awaiting } := by
  rw [step]
  split <;> simp_all [eq_comm]

theorem step_resume_iff : s.step (.resume i) = some t ↔
    (s.caller i = .awaiting ∧ s.event.status i = .notified) ∧
      t = { s with
        event := s.event.remove i
        caller := Function.update s.caller i .resumed } := by
  rw [step]
  split <;> simp_all [eq_comm]

theorem step_take_iff : s.step (.take i) = some t ↔ s.caller i = .resumed ∧
    ((∃ v, s.result = some v ∧ t = { s with
        result := none
        caller := Function.update s.caller i (.returned v) }) ∨
      (s.result = none ∧ t = { s with caller := Function.update s.caller i .panicked })) := by
  rw [step]
  split <;> simp_all [eq_comm]

theorem step_replace_iff : s.step (.replace k v) = some t ↔ s.completer k = .idle ∧
    t = { s with
      result := some v
      completer := Function.update s.completer k (.replaced v) } := by
  rw [step]
  split <;> simp_all [eq_comm]

theorem step_notify_iff : s.step (.notify k) = some t ↔
    ∃ v, s.completer k = .replaced v ∧ t = { s with
      event := s.event.notifyAll
      completer := Function.update s.completer k (.returned v) } := by
  rw [step]
  split
  next w hw =>
    constructor
    · intro h
      exact ⟨w, hw, (Option.some.inj h).symm⟩
    · rintro ⟨w', hw', rfl⟩
      rw [hw] at hw'
      cases hw'
      rfl
  · simp_all

omit [DecidableEq κ] in
theorem update_returned {pc : CallerPc T} {j : ι} (hj : s.caller j ≠ .returned v)
    (hi : s.caller i = .returned v) : Function.update s.caller j pc i = .returned v := by
  rwa [Function.update_of_ne (by rintro rfl; exact hj hi)]

/-- The values a caller has returned stay. -/
theorem caller_returned_of_step {a : AsyncAction ι κ T} (h : s.step a = some t)
    (hi : s.caller i = .returned v) : t.caller i = .returned v := by
  cases a with
  | listen j =>
    obtain ⟨hj, rfl⟩ := step_listen_iff.1 h
    exact update_returned (by simp [hj]) hi
  | runF j =>
    obtain ⟨hj, rfl⟩ := step_runF_iff.1 h
    exact update_returned (by simp [hj]) hi
  | wait j =>
    obtain ⟨hj, rfl⟩ := step_wait_iff.1 h
    exact update_returned (by simp [hj]) hi
  | resume j =>
    obtain ⟨⟨hj, -⟩, rfl⟩ := step_resume_iff.1 h
    exact update_returned (by simp [hj]) hi
  | take j =>
    obtain ⟨hj, ⟨w, -, rfl⟩ | ⟨-, rfl⟩⟩ := step_take_iff.1 h <;>
      exact update_returned (by simp [hj]) hi
  | replace k w =>
    obtain ⟨-, rfl⟩ := step_replace_iff.1 h
    exact hi
  | notify k =>
    obtain ⟨w, -, rfl⟩ := step_notify_iff.1 h
    exact hi

theorem caller_returned_of_run {as : List (AsyncAction ι κ T)} :
    ∀ {s : AsyncCall ι κ T}, (machine ι κ T).run s as = some t → s.caller i = .returned v →
      t.caller i = .returned v := by
  induction as with
  | nil =>
    intro s h hi
    rwa [← Option.some.inj h]
  | cons a as ih =>
    intro s h hi
    obtain ⟨u, hu, hrun⟩ := Option.bind_eq_some_iff.1 h
    exact ih hrun (caller_returned_of_step hu hi)

/-! ### Listeners and program counters -/

/-- A call is in progress from its registration to its return. -/
def Active (s : AsyncCall ι κ T) (i : ι) : Prop :=
  s.caller i = .listening ∨ s.caller i = .awaiting ∨ s.caller i = .resumed

omit [DecidableEq ι] [DecidableEq κ] in
theorem Active.congr (h : t.caller i = s.caller i) : t.Active i ↔ s.Active i := by
  rw [Active, Active, h]

/-- A listener is registered exactly between `listen` and the end of the await. -/
def ListenersOk (s : AsyncCall ι κ T) : Prop :=
  ∀ i, s.event.status i ≠ .idle ↔ s.caller i = .listening ∨ s.caller i = .awaiting

theorem listenersOk_of_step {a : AsyncAction ι κ T} (hs : s.ListenersOk)
    (h : s.step a = some t) : t.ListenersOk := by
  intro j
  have hj := hs j
  cases a with
  | listen i =>
    obtain ⟨hi, rfl⟩ := step_listen_iff.1 h
    rcases eq_or_ne j i with rfl | hne
    · simp [WaitSet.register_status]
    · simpa [WaitSet.register_status, hne] using hj
  | runF i =>
    obtain ⟨hi, rfl⟩ := step_runF_iff.1 h
    rcases eq_or_ne j i with rfl | hne
    · simpa [hi] using hj
    · simpa [hne] using hj
  | wait i =>
    obtain ⟨hi, rfl⟩ := step_wait_iff.1 h
    rcases eq_or_ne j i with rfl | hne
    · simp [WaitSet.register_status]
    · simpa [WaitSet.register_status, hne] using hj
  | resume i =>
    obtain ⟨-, rfl⟩ := step_resume_iff.1 h
    rcases eq_or_ne j i with rfl | hne
    · simp [WaitSet.remove_status]
    · simpa [WaitSet.remove_status, hne] using hj
  | take i =>
    obtain ⟨hi, ⟨v, -, rfl⟩ | ⟨-, rfl⟩⟩ := step_take_iff.1 h <;>
    · rcases eq_or_ne j i with rfl | hne
      · simpa [hi] using hj
      · simpa [hne] using hj
  | replace k v =>
    obtain ⟨-, rfl⟩ := step_replace_iff.1 h
    exact hj
  | notify k =>
    obtain ⟨v, -, rfl⟩ := step_notify_iff.1 h
    simpa using hj

end AsyncCall

end Esp32A2dpPlayer
