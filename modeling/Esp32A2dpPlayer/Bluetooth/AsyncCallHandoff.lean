import Esp32A2dpPlayer.Bluetooth.AsyncCallSafety

/-!
# What `AsyncCall` guarantees to callers that overlap

Concurrent callers get less than one. The notification of one completion wakes every caller, and a
second completion overwrites the slot, so `doAndWait_overlapping` fails outright. What does hold
of overlapping calls with one completion each is `doAndWait_handoff`: each value goes to its own
caller if a call registers only while no other waits, and a completion stores only into a slot
that has been emptied.

Under this discipline the slot has one owner at a time, from the `replace` of its completion over
the notification to the `take` of its caller. `HandoffInv` says what the owner finds at each of
these places, with one lemma for each step, `handoffInv_listen` to `handoffInv_notify`.
-/

namespace Esp32A2dpPlayer

namespace AsyncCall

variable {ι T : Type*} [DecidableEq ι] {i : ι} {v : T}

/-! ### Overlapping callers, one completion each -/

/-- Call `i` is answered by completion `i`, which starts after the call's `f` has started. -/
def OnePerCall (s : AsyncCall ι ι T) : AsyncAction ι ι T → Prop
  | .replace i _ => s.caller i ≠ .idle ∧ s.caller i ≠ .listening
  | .wait _ => False
  | _ => True

/-- A call registers only while no other one waits, and a completion stores only into an empty
slot. -/
def Handoff (s : AsyncCall ι ι T) : AsyncAction ι ι T → Prop
  | .listen _ => ∀ j, s.event.status j ≠ .waiting
  | .replace _ _ => s.result = none
  | _ => True

/-- The slot is on its way to call `i`. -/
def Owner (s : AsyncCall ι ι T) (i : ι) : Prop :=
  (∃ v, s.completer i = .replaced v) ∨ s.event.status i = .notified ∨ s.caller i = .resumed

/-- What links the slot, the calls and their completions under `Handoff`. -/
structure HandoffInv (s : AsyncCall ι ι T) : Prop where
  listeners : s.ListenersOk
  fresh : ∀ i, s.caller i = .idle ∨ s.caller i = .listening → s.completer i = .idle
  oneWaiting : ∀ i j, s.event.status i = .waiting → s.event.status j = .waiting → i = j
  oneOwner : ∀ i j, s.Owner i → s.Owner j → i = j
  replaced : ∀ i v, s.completer i = .replaced v →
    s.event.status i = .waiting ∧ s.result = some v
  woken : ∀ i, s.event.status i = .notified ∨ s.caller i = .resumed →
    ∃ v, s.completer i = .returned v ∧ s.result = some v
  returned : ∀ i v, s.caller i = .returned v → s.completer i = .returned v
  kept : ∀ i v, s.completer i = .returned v →
    s.caller i = .returned v ∨ s.event.status i = .notified ∨ s.caller i = .resumed
  noPanic : ∀ i, s.caller i ≠ .panicked

omit [DecidableEq ι] in
/-- A completion that can still store finds its own call waiting, and nobody the owner. -/
theorem HandoffInv.before_replace {s : AsyncCall ι ι T} (hs : HandoffInv s) {i : ι} {v : T}
    (hC : OnePerCall s (.replace i v)) (hempty : s.result = none)
    (hi : s.completer i = .idle) : s.event.status i = .waiting ∧ ∀ j, ¬ s.Owner j := by
  have hnone : ∀ j, ¬ s.Owner j := by
    rintro j (⟨w, hw⟩ | hw)
    · have := (hs.replaced j w hw).2
      rw [hempty] at this
      cases this
    · obtain ⟨w, -, hres⟩ := hs.woken j hw
      rw [hempty] at hres
      cases hres
  refine ⟨?_, hnone⟩
  have hstat : s.event.status i ≠ .idle := by
    rw [hs.listeners i]
    rcases hc : s.caller i with - | - | - | - | w | -
    · exact absurd hc hC.1
    · exact absurd hc hC.2
    · exact Or.inr rfl
    · exact absurd (Or.inr (Or.inr hc)) (hnone i)
    · have := hs.returned i w hc
      rw [hi] at this
      cases this
    · exact absurd hc (hs.noPanic i)
  rcases hw : s.event.status i with - | - | -
  · exact absurd hw hstat
  · rfl
  · exact absurd (Or.inr (Or.inl hw)) (hnone i)

/-- A call that moves on leaves the other calls fresh. -/
theorem HandoffInv.fresh_update {s : AsyncCall ι ι T} (hs : HandoffInv s) {i : ι}
    {pc : CallerPc T} (hpc : pc = .idle ∨ pc = .listening → s.completer i = .idle) :
    ∀ j, Function.update s.caller i pc j = .idle ∨ Function.update s.caller i pc j = .listening →
      s.completer j = .idle :=
  (Function.forall_update_iff s.caller fun j pc ↦
    pc = .idle ∨ pc = .listening → s.completer j = .idle).2 ⟨hpc, fun j _ ↦ hs.fresh j⟩

/-- A call that moves on leaves what the other calls have returned. -/
theorem HandoffInv.returned_update {s : AsyncCall ι ι T} (hs : HandoffInv s) {i : ι}
    {pc : CallerPc T} (hpc : ∀ v, pc = .returned v → s.completer i = .returned v) :
    ∀ j v, Function.update s.caller i pc j = .returned v → s.completer j = .returned v :=
  (Function.forall_update_iff s.caller fun j pc ↦
    ∀ v, pc = .returned v → s.completer j = .returned v).2 ⟨hpc, fun j _ ↦ hs.returned j⟩

/-- A call registers while nobody waits. It is the only one to wait from here on, and it owns
nothing. -/
theorem handoffInv_listen {s t : AsyncCall ι ι T} (hs : HandoffInv s)
    (hnowait : Handoff s (.listen i))
    (h : s.step (.listen i) = some t) : HandoffInv t := by
  have hlist := listenersOk_of_step hs.listeners h
  obtain ⟨hi, rfl⟩ := step_listen_iff.1 h
  have hfresh := hs.fresh i (Or.inl hi)
  -- only the new call waits, and it owns nothing
  have hown : ∀ j, Owner { s with
      event := s.event.register i
      caller := Function.update s.caller i .listening } j → j ≠ i ∧ s.Owner j := by
    rintro j hj
    rcases eq_or_ne j i with rfl | hne
    · simp [Owner, hfresh, WaitSet.register_status] at hj
    · exact ⟨hne, by simpa [Owner, WaitSet.register_status, hne] using hj⟩
  refine ⟨hlist, hs.fresh_update fun _ ↦ hfresh, fun j j' hj hj' ↦ ?_, fun j j' hj hj' ↦
    hs.oneOwner j j' (hown j hj).2 (hown j' hj').2, fun j v hv ↦
      absurd (hs.replaced j v hv).1 (hnowait j), fun j hj ↦ ?_, hs.returned_update (by simp),
    fun j v hv ↦ ?_, noPanic_update hs.noPanic (by simp)⟩
  · have hself : ∀ j, (s.event.register i).status j = .waiting → j = i := by
      intro j hj
      by_contra hne
      exact hnowait j (by simpa [WaitSet.register_status, hne] using hj)
    rw [hself j hj, hself j' hj']
  · obtain ⟨hne, -⟩ := hown j (Or.inr hj)
    exact hs.woken j (by simpa [WaitSet.register_status, hne] using hj)
  · rcases eq_or_ne j i with rfl | hne
    · have hv' : s.completer j = .returned v := hv
      rw [hfresh] at hv'
      cases hv'
    · simpa [WaitSet.register_status, hne] using hs.kept j v hv

/-- `f` runs, and the owner stays the owner. -/
theorem handoffInv_runF {s t : AsyncCall ι ι T} (hs : HandoffInv s)
    (h : s.step (.runF i) = some t) : HandoffInv t := by
  have hlist := listenersOk_of_step hs.listeners h
  obtain ⟨hi, rfl⟩ := step_runF_iff.1 h
  have hown : ∀ j, Owner { s with caller := Function.update s.caller i .awaiting } j →
      s.Owner j := by
    rintro j (hj | hj | hj)
    · exact Or.inl hj
    · exact Or.inr (Or.inl hj)
    · rcases eq_or_ne j i with rfl | hne
      · simp at hj
      · exact Or.inr (Or.inr (by simpa [hne] using hj))
  refine ⟨hlist, hs.fresh_update (by simp), hs.oneWaiting, fun j j' hj hj' ↦
    hs.oneOwner j j' (hown j hj) (hown j' hj'), hs.replaced, fun j hj ↦ ?_,
    hs.returned_update (by simp), fun j v hv ↦ ?_, noPanic_update hs.noPanic (by simp)⟩
  · rcases eq_or_ne j i with rfl | hne
    · exact hs.woken j (Or.inl (by simpa using hj))
    · exact hs.woken j (by simpa [hne] using hj)
  · rcases eq_or_ne j i with rfl | hne
    · simpa [hi] using hs.kept j v hv
    · simpa [hne] using hs.kept j v hv

/-- The await returns. The call had been notified and was the owner, which it stays. -/
theorem handoffInv_resume {s t : AsyncCall ι ι T} (hs : HandoffInv s)
    (h : s.step (.resume i) = some t) : HandoffInv t := by
  have hlist := listenersOk_of_step hs.listeners h
  obtain ⟨⟨hi, hn⟩, rfl⟩ := step_resume_iff.1 h
  have hown : ∀ j, Owner { s with
      event := s.event.remove i
      caller := Function.update s.caller i .resumed } j → s.Owner j := by
    rintro j hj
    rcases eq_or_ne j i with rfl | hne
    · exact Or.inr (Or.inl hn)
    · simpa [Owner, WaitSet.remove_status, hne] using hj
  have hwaits : ∀ j, (s.event.remove i).status j = .waiting → s.event.status j = .waiting := by
    intro j hj
    rcases eq_or_ne j i with rfl | hne
    · simp [WaitSet.remove_status] at hj
    · simpa [WaitSet.remove_status, hne] using hj
  refine ⟨hlist, hs.fresh_update (by simp), fun j j' hj hj' ↦
    hs.oneWaiting j j' (hwaits j hj) (hwaits j' hj'), fun j j' hj hj' ↦
      hs.oneOwner j j' (hown j hj) (hown j' hj'), fun j v hv ↦ ?_, fun j hj ↦ ?_,
    hs.returned_update (by simp), fun j v hv ↦ ?_, noPanic_update hs.noPanic (by simp)⟩
  · obtain ⟨hw, hres⟩ := hs.replaced j v hv
    have hne : j ≠ i := by
      rintro rfl
      rw [hn] at hw
      cases hw
    exact ⟨by simpa [WaitSet.remove_status, hne] using hw, hres⟩
  · rcases eq_or_ne j i with rfl | hne
    · exact hs.woken j (Or.inl hn)
    · exact hs.woken j (by simpa [WaitSet.remove_status, hne] using hj)
  · rcases eq_or_ne j i with rfl | hne
    · exact Or.inr (Or.inr (by simp))
    · simpa [WaitSet.remove_status, hne] using hs.kept j v hv

/-- The owner takes its own value, and there is no owner behind it. -/
theorem handoffInv_take {s t : AsyncCall ι ι T} (hs : HandoffInv s)
    (h : s.step (.take i) = some t) : HandoffInv t := by
  have hlist := listenersOk_of_step hs.listeners h
  obtain ⟨hi, hcase⟩ := step_take_iff.1 h
  obtain ⟨v, hcv, hv⟩ := hs.woken i (Or.inr hi)
  obtain ⟨w, hw, rfl⟩ | ⟨hnone, -⟩ := hcase
  swap
  · rw [hv] at hnone
    cases hnone
  rw [hv] at hw
  cases hw
  have hidle := hs.listeners.status_of_resumed hi
  -- the call was the only owner, so now there is none
  have hown : ∀ j, ¬ Owner { s with
      result := none
      caller := Function.update s.caller i (.returned v) } j := by
    intro j hj
    rcases eq_or_ne j i with rfl | hne
    · simp [Owner, hcv, hidle] at hj
    · exact hne (hs.oneOwner j i (by simpa [Owner, hne] using hj) (Or.inr (Or.inr hi)))
  refine ⟨hlist, hs.fresh_update (by simp), hs.oneWaiting, fun j j' hj _ ↦ absurd hj (hown j),
    fun j w hw ↦ absurd (Or.inl ⟨w, hw⟩) (hown j), fun j hj ↦ absurd (Or.inr hj) (hown j),
    hs.returned_update fun w hw ↦ ?_, fun j w hw ↦ ?_, noPanic_update hs.noPanic (by simp)⟩
  · cases hw
    exact hcv
  · rcases eq_or_ne j i with rfl | hne
    · have hw' : s.completer j = .returned w := hw
      rw [hcv] at hw'
      cases hw'
      exact Or.inl (by simp)
    · simpa [hne] using hs.kept j w hw

/-- A completion stores into an empty slot. Nobody was the owner, and its own call, which waits, is
now. -/
theorem handoffInv_replace {s t : AsyncCall ι ι T} (hs : HandoffInv s)
    (hC : OnePerCall s (.replace i v) ∧ Handoff s (.replace i v))
    (h : s.step (.replace i v) = some t) : HandoffInv t := by
  have hlist := listenersOk_of_step hs.listeners h
  obtain ⟨hi, rfl⟩ := step_replace_iff.1 h
  obtain ⟨hwait, hnone⟩ := hs.before_replace hC.1 hC.2 hi
  have hown : ∀ j, Owner { s with
      result := some v
      completer := Function.update s.completer i (.replaced v) } j → j = i := by
    intro j hj
    by_contra hne
    exact hnone j (by simpa [Owner, hne] using hj)
  refine ⟨hlist, fun j hj ↦ ?_, hs.oneWaiting, fun j j' hj hj' ↦ (hown j hj).trans
    (hown j' hj').symm, fun j w hw ↦ ?_, fun j hj ↦ absurd (Or.inr hj) (hnone j),
    fun j w hj ↦ ?_, fun j w hw ↦ ?_, hs.noPanic⟩
  · rcases eq_or_ne j i with rfl | hne
    · rcases hj with hj | hj
      · exact absurd hj hC.1.1
      · exact absurd hj hC.1.2
    · simpa [hne] using hs.fresh j hj
  · obtain rfl := hown j (Or.inl ⟨w, hw⟩)
    have hvw : v = w := by simpa using hw
    exact ⟨hwait, hvw ▸ rfl⟩
  · rcases eq_or_ne j i with rfl | hne
    · have := hs.returned j w hj
      rw [hi] at this
      cases this
    · simpa [hne] using hs.returned j w hj
  · rcases eq_or_ne j i with rfl | hne
    · simp at hw
    · exact hs.kept j w (by simpa [hne] using hw)

/-- A completion notifies. Its own call is the only one to wait, so it is the only one woken. -/
theorem handoffInv_notify {s t : AsyncCall ι ι T} (hs : HandoffInv s)
    (h : s.step (.notify i) = some t) : HandoffInv t := by
  have hlist := listenersOk_of_step hs.listeners h
  obtain ⟨v, hi, rfl⟩ := step_notify_iff.1 h
  obtain ⟨hwait, hres⟩ := hs.replaced i v hi
  -- whoever is woken now is the call of this completion
  have hwoken : ∀ j, s.event.notifyAll.status j = .notified ∨ s.caller j = .resumed →
      j = i := by
    rintro j (hj | hj)
    · rcases hst : s.event.status j with - | - | -
      · exact absurd hst (WaitSet.notifyAll_status_eq_notified_iff.1 hj)
      · exact hs.oneWaiting j i hst hwait
      · exact hs.oneOwner j i (Or.inr (Or.inl hst)) (Or.inl ⟨v, hi⟩)
    · exact hs.oneOwner j i (Or.inr (Or.inr hj)) (Or.inl ⟨v, hi⟩)
  have hrep : ∀ j w, Function.update s.completer i (.returned v) j ≠ .replaced w := by
    intro j w hw
    rcases eq_or_ne j i with rfl | hne
    · simp at hw
    · exact hne (hs.oneOwner j i (Or.inl ⟨w, by simpa [hne] using hw⟩) (Or.inl ⟨v, hi⟩))
  have hown : ∀ j, Owner { s with
      event := s.event.notifyAll
      completer := Function.update s.completer i (.returned v) } j → j = i := by
    rintro j (⟨w, hw⟩ | hj)
    · exact absurd hw (hrep j w)
    · exact hwoken j hj
  refine ⟨hlist, fun j hj ↦ ?_, fun j j' hj _ ↦
    absurd hj (WaitSet.notifyAll_status_ne_waiting _ _), fun j j' hj hj' ↦
      (hown j hj).trans (hown j' hj').symm, fun j w hw ↦ absurd hw (hrep j w), fun j hj ↦ ?_,
    fun j w hj ↦ ?_, fun j w hw ↦ ?_, hs.noPanic⟩
  · rcases eq_or_ne j i with rfl | hne
    · have := hs.fresh j hj
      rw [hi] at this
      cases this
    · simpa [hne] using hs.fresh j hj
  · obtain rfl := hwoken j hj
    exact ⟨v, by simp, hres⟩
  · rcases eq_or_ne j i with rfl | hne
    · have := hs.returned j w hj
      rw [hi] at this
      cases this
    · simpa [hne] using hs.returned j w hj
  · rcases eq_or_ne j i with rfl | hne
    · exact Or.inr (Or.inl (by simp [hwait]))
    · rcases hs.kept j w (by simpa [hne] using hw) with hj | hj
      · exact Or.inl hj
      · exact absurd (hs.oneOwner j i (Or.inr hj) (Or.inl ⟨v, hi⟩)) hne

/-- The step lemma of the hand-off. -/
theorem handoffInv_of_step {s t : AsyncCall ι ι T} {a : AsyncAction ι ι T} (hs : HandoffInv s)
    (hC : OnePerCall s a ∧ Handoff s a) (h : s.step a = some t) : HandoffInv t := by
  cases a with
  | listen i => exact handoffInv_listen hs hC.2 h
  | runF i => exact handoffInv_runF hs h
  | wait i => exact hC.1.elim
  | resume i => exact handoffInv_resume hs h
  | take i => exact handoffInv_take hs h
  | replace i v => exact handoffInv_replace hs hC h
  | notify i => exact handoffInv_notify hs h

omit [DecidableEq ι] in
/-- Before the first step nobody owns the slot. -/
theorem handoffInv_new : HandoffInv (new : AsyncCall ι ι T) := by
  refine ⟨fun i ↦ by simp [new], ?_, ?_, ?_, ?_, ?_, ?_, ?_, ?_⟩ <;> simp [new, Owner]

/-- The run lemma of the hand-off. -/
theorem handoffInv_of_run {as : List (AsyncAction ι ι T)} {s : AsyncCall ι ι T}
    (hC : (machine ι ι T).AllSteps (fun s a ↦ OnePerCall s a ∧ Handoff s a) new as)
    (h : (machine ι ι T).run new as = some s) : HandoffInv s :=
  (machine ι ι T).run_invariant_of_allSteps (I := fun _ s ↦ HandoffInv s) handoffInv_new
    (fun _ _ _ _ _ hs hC ht ↦ handoffInv_of_step hs hC ht) hC h

omit [DecidableEq ι] in
/-- A call that owns the slot has been woken, or is past its await. -/
theorem HandoffInv.active_of_woken {s : AsyncCall ι ι T} (hs : HandoffInv s) {i : ι}
    (hi : s.event.status i = .notified ∨ s.caller i = .resumed) :
    s.Active i ∧ s.event.status i ≠ .waiting := by
  rcases hi with hi | hi
  · refine ⟨?_, by simp [hi]⟩
    rcases (hs.listeners i).1 (by simp [hi]) with hc | hc
    · exact Or.inl hc
    · exact Or.inr (Or.inl hc)
  · exact ⟨Or.inr (Or.inr hi), by simp [hs.listeners.status_of_resumed hi]⟩

/-- **Overlapping callers are served by hand-off**: no empty slot is taken, a value returned is
the value of the caller's own completion, and a value stored has been returned by that caller
or is in the slot with the caller woken for it. -/
theorem doAndWait_handoff {as : List (AsyncAction ι ι T)} {s : AsyncCall ι ι T}
    (hC : (machine ι ι T).AllSteps (fun s a ↦ OnePerCall s a ∧ Handoff s a) new as)
    (h : (machine ι ι T).run new as = some s) :
    (∀ i, s.caller i ≠ .panicked) ∧
      (∀ i v, s.caller i = .returned v → s.completer i = .returned v) ∧
      ∀ i v, s.completer i = .returned v → s.caller i = .returned v ∨
        s.Active i ∧ s.event.status i ≠ .waiting ∧ s.result = some v := by
  have hinv := handoffInv_of_run hC h
  refine ⟨hinv.noPanic, hinv.returned, fun i v hv ↦ ?_⟩
  rcases hinv.kept i v hv with hi | hi
  · exact Or.inl hi
  · obtain ⟨w, hw, hres⟩ := hinv.woken i hi
    rw [hv] at hw
    cases hw
    obtain ⟨hact, hstat⟩ := hinv.active_of_woken hi
    exact Or.inr ⟨hact, hstat, hres⟩

/-- Call `1` registers while the value of call `0` is on its way to it. -/
def handoffRun : List (AsyncAction ℕ ℕ ℕ) :=
  [.listen 0, .runF 0, .replace 0 7, .notify 0, .listen 1, .runF 1, .resume 0, .take 0,
    .replace 1 8, .notify 1, .resume 1, .take 1]

/-- Two calls overlap, and each is answered with its own value. -/
theorem doAndWait_handoff_overlapping : ∃ s, (machine ℕ ℕ ℕ).run new handoffRun = some s ∧
    s.caller 0 = .returned 7 ∧ s.caller 1 = .returned 8 ∧ ∀ i, s.caller i ≠ .panicked := by
  have hC : (machine ℕ ℕ ℕ).AllSteps (fun s a ↦ OnePerCall s a ∧ Handoff s a) new
      handoffRun := by
    refine .cons ⟨trivial, ?_⟩ rfl <| .cons ⟨trivial, trivial⟩ rfl <| .cons ⟨?_, rfl⟩ rfl <|
      .cons ⟨trivial, trivial⟩ rfl <| .cons ⟨trivial, ?_⟩ rfl <|
        .cons ⟨trivial, trivial⟩ rfl <| .cons ⟨trivial, trivial⟩ rfl <|
          .cons ⟨trivial, trivial⟩ rfl <| .cons ⟨?_, rfl⟩ rfl <|
            .cons ⟨trivial, trivial⟩ rfl <| .cons ⟨trivial, trivial⟩ rfl <|
              .cons ⟨trivial, trivial⟩ rfl .nil
    · intro j
      simp [new]
    · simp [OnePerCall]
    · exact fun j ↦ WaitSet.notifyAll_status_ne_waiting _ _
    · simp [OnePerCall]
  exact ⟨_, rfl, rfl, rfl, (doAndWait_handoff hC rfl).1⟩

/-- Two calls wait for one notification, and the second to resume finds the slot empty. -/
def overlappingRun : List (AsyncAction ℕ ℕ ℕ) :=
  [.listen 0, .listen 1, .runF 0, .runF 1, .replace 0 7, .notify 0, .resume 0, .take 0,
    .resume 1, .take 1]

/-- Overlapping calls are not safe without the hand-off, completed once each or not. -/
theorem doAndWait_overlapping : ¬ ∀ (as : List (AsyncAction ℕ ℕ ℕ)) (s : AsyncCall ℕ ℕ ℕ),
    (machine ℕ ℕ ℕ).AllSteps OnePerCall new as → (machine ℕ ℕ ℕ).run new as = some s →
      ∀ i, s.caller i ≠ .panicked := by
  intro hall
  have hC : (machine ℕ ℕ ℕ).AllSteps OnePerCall new overlappingRun := by
    refine .cons trivial rfl <| .cons trivial rfl <| .cons trivial rfl <|
      .cons trivial rfl <| .cons ?_ rfl <| .cons trivial rfl <| .cons trivial rfl <|
        .cons trivial rfl <| .cons trivial rfl <| .cons trivial rfl .nil
    simp [OnePerCall]
  exact hall overlappingRun _ hC rfl 1 rfl

end AsyncCall

end Esp32A2dpPlayer
