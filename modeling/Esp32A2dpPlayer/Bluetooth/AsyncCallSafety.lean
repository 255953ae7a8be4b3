import Esp32A2dpPlayer.Bluetooth.AsyncCall

/-!
# What `AsyncCall` guarantees to one caller

One slot and a wake-all event serve one call at a time. `doAndWait_oneCaller` is that guarantee
against any number of completions, solicited or not: no empty slot is taken, and the value
returned is the last one stored, stored after the call registered. Its one assumption besides
the discipline is that no completion is between its two steps when a call registers — the
`notify` of such a completion would wake the call for a value stored before it.

The invariant has the trace as an argument, because what is in the slot is to be the last value
that the trace stores. There is a step lemma for each step, `oneCallerInv_listen` to
`oneCallerInv_notify`.

Of a call that is the only one ever made less needs to be known, and nothing of the trace
(`OnlyCaller`): it finds its slot full, whatever the completions do.
-/

namespace Esp32A2dpPlayer

namespace AsyncCall

variable {ι κ T : Type*} [DecidableEq ι] [DecidableEq κ]

/-! ### Traces -/

/-- `v` is the last value stored in the trace, and it was stored after `listen i`. -/
def StoredLast (i : ι) (v : T) (as : List (AsyncAction ι κ T)) : Prop :=
  ∃ as₁ as₂ k as₃, as = as₁ ++ .listen i :: as₂ ++ .replace k v :: as₃ ∧
    ∀ k' v', .replace k' v' ∉ as₃

/-- `complete` call `k` stored its value after `listen i`. -/
def ReplacedSince (i : ι) (k : κ) (as : List (AsyncAction ι κ T)) : Prop :=
  ∃ as₁ as₂ v, as = as₁ ++ .listen i :: as₂ ∧ .replace k v ∈ as₂

variable {as : List (AsyncAction ι κ T)} {a : AsyncAction ι κ T} {s t : AsyncCall ι κ T}
  {i : ι} {k : κ} {v : T}

omit [DecidableEq ι] [DecidableEq κ] in
/-- The last value stays the last until another is stored. -/
theorem StoredLast.concat (h : StoredLast i v as) (ha : ∀ k' v', a ≠ .replace k' v') :
    StoredLast i v (as ++ [a]) := by
  obtain ⟨as₁, as₂, k, as₃, rfl, hlast⟩ := h
  refine ⟨as₁, as₂, k, as₃ ++ [a], by simp, ?_⟩
  intro k' v' hmem
  rcases List.mem_append.1 hmem with hmem | hmem
  · exact hlast k' v' hmem
  · exact ha k' v' (List.mem_singleton.1 hmem).symm

omit [DecidableEq ι] [DecidableEq κ] in
/-- A value is the last one where it is stored. -/
theorem StoredLast.of_replace (h : .listen i ∈ as) :
    StoredLast i v (as ++ [.replace k v]) := by
  obtain ⟨as₁, as₂, rfl⟩ := List.append_of_mem h
  exact ⟨as₁, as₂, k, [], rfl, by simp⟩

omit [DecidableEq ι] [DecidableEq κ] in
/-- A completion that has stored did so before the last step, or in it. -/
theorem ReplacedSince.of_concat (h : ReplacedSince i k (as ++ [a])) :
    ReplacedSince i k as ∨ (.listen i ∈ as ∧ ∃ v, a = .replace k v) := by
  obtain ⟨as₁, as₂, v, heq, hmem⟩ := h
  rcases StepMachine.concat_eq_append_cons heq with ⟨rfl, rfl⟩ | ⟨as₃, rfl, rfl⟩
  · obtain rfl : as₂ = [] := by simpa using heq
    simp at hmem
  · rcases List.mem_append.1 hmem with hmem | hmem
    · exact Or.inl ⟨as₁, as₃, v, rfl, hmem⟩
    · exact Or.inr ⟨by simp, v, (List.mem_singleton.1 hmem).symm⟩

omit [DecidableEq ι] [DecidableEq κ] in
/-- What comes since the `listen` has the `listen` before it. -/
theorem ReplacedSince.listen_mem (h : ReplacedSince i k as) : .listen i ∈ as := by
  obtain ⟨as₁, as₂, v, rfl, -⟩ := h
  simp

/-! ### After one call has moved -/

omit [DecidableEq κ] in
/-- No caller has panicked if the one that moves does not. -/
theorem noPanic_update {pc : CallerPc T} (hs : ∀ j, s.caller j ≠ .panicked)
    (hpc : pc ≠ .panicked) : ∀ j, Function.update s.caller i pc j ≠ .panicked :=
  (Function.forall_update_iff s.caller fun _ pc ↦ pc ≠ .panicked).2 ⟨hpc, fun j _ ↦ hs j⟩

omit [DecidableEq κ] in
/-- A call that goes on has registered before. -/
theorem listened_update {pc : CallerPc T} (hs : ∀ j, .listen j ∈ as ↔ s.caller j ≠ .idle)
    (hi : s.caller i ≠ .idle) (hpc : pc ≠ .idle) (ha : ∀ j, a ≠ .listen j) :
    ∀ j, .listen j ∈ as ++ [a] ↔ Function.update s.caller i pc j ≠ .idle := by
  have hmem : ∀ j, .listen j ∈ as ++ [a] ↔ s.caller j ≠ .idle := by
    intro j
    simpa [(ha j).symm] using hs j
  exact (Function.forall_update_iff s.caller fun j pc ↦ .listen j ∈ as ++ [a] ↔ pc ≠ .idle).2
    ⟨iff_of_true ((hmem i).2 hi) hpc, fun j _ ↦ hmem j⟩

omit [DecidableEq κ] in
/-- A call that moves on was in progress before. -/
theorem Active.of_update {pc : CallerPc T} (hi : s.Active i)
    (ht : t.caller = Function.update s.caller i pc) {j : ι} (hj : t.Active j) : s.Active j := by
  rcases eq_or_ne j i with rfl | hne
  · exact hi
  · exact (Active.congr (by rw [ht, Function.update_of_ne hne])).1 hj

/-! ### One call and no other -/

/-- Nobody but `i` calls. What a completion has stored is in the slot until the call has taken it,
and the call is woken by a completion. -/
structure OnlyCaller (i : ι) (s : AsyncCall ι κ T) : Prop where
  others : ∀ j, s.caller j ≠ .idle → j = i
  stored : ∀ k, s.completer k ≠ .idle → s.result.isSome ∨ ∃ v, s.caller i = .returned v
  woken : s.event.status i = .notified ∨ s.caller i = .resumed → ∃ k, s.completer k ≠ .idle

omit [DecidableEq ι] [DecidableEq κ] in
/-- Nobody has called yet. -/
theorem onlyCaller_new : OnlyCaller i (new : AsyncCall ι κ T) :=
  ⟨fun _ h ↦ absurd rfl h, fun _ h ↦ absurd rfl h, fun h ↦ by simp [new] at h⟩

omit [DecidableEq κ] in
/-- The call goes on from where it stood. -/
theorem OnlyCaller.update {pc : CallerPc T} {event : WaitSet ι} (hs : s.OnlyCaller i)
    (hi : ∀ v, s.caller i ≠ .returned v)
    (hwoken : event.status i = .notified ∨ pc = .resumed → ∃ k, s.completer k ≠ .idle) :
    OnlyCaller i { s with event, caller := Function.update s.caller i pc } := by
  refine ⟨fun j hj ↦ ?_, fun k hk ↦ ?_, ?_⟩
  · by_contra hne
    exact hne (hs.others j (by simpa [Function.update_of_ne hne] using hj))
  · exact .inl ((hs.stored k hk).resolve_right fun ⟨v, hv⟩ ↦ hi v hv)
  · simpa using hwoken

omit [DecidableEq ι] [DecidableEq κ] in
/-- Where the call has been woken its value is in the slot. -/
theorem OnlyCaller.exists_result (hs : s.OnlyCaller i) (hi : s.caller i = .resumed) :
    ∃ v, s.result = some v := by
  obtain ⟨k, hk⟩ := hs.woken (.inr hi)
  obtain hsome | ⟨v, hv⟩ := hs.stored k hk
  · exact Option.isSome_iff_exists.1 hsome
  · rw [hi] at hv
    cases hv

/-- **A lone call finds its slot full.** -/
theorem OnlyCaller.returned_of_take (hs : s.OnlyCaller i) {j : ι} (h : s.step (.take j) = some t) :
    ∃ v, t.caller j = .returned v := by
  obtain ⟨hj, ⟨v, -, rfl⟩ | ⟨hnone, -⟩⟩ := step_take_iff.1 h
  · exact ⟨v, Function.update_self ..⟩
  · obtain rfl := hs.others j (by simp [hj])
    obtain ⟨v, hv⟩ := hs.exists_result hj
    rw [hnone] at hv
    cases hv

/-- The step lemma of a lone call. It is the one who registers, and a completion may come at any
time. -/
theorem OnlyCaller.step (hs : s.OnlyCaller i) (ha : ∀ j, a = .listen j ∨ a = .wait j → j = i)
    (h : s.step a = some t) : t.OnlyCaller i := by
  cases a with
  | listen j =>
    obtain rfl := ha j (.inl rfl)
    obtain ⟨hj, rfl⟩ := step_listen_iff.1 h
    exact hs.update (by simp [hj]) (by simp [WaitSet.register_status])
  | wait j =>
    obtain rfl := ha j (.inr rfl)
    obtain ⟨hj, rfl⟩ := step_wait_iff.1 h
    exact hs.update (by simp [hj]) (by simp [WaitSet.register_status])
  | runF j =>
    obtain ⟨hj, rfl⟩ := step_runF_iff.1 h
    obtain rfl := hs.others j (by simp [hj])
    exact hs.update (by simp [hj]) (by simpa using fun hn ↦ hs.woken (.inl hn))
  | resume j =>
    obtain ⟨⟨hj, hn⟩, rfl⟩ := step_resume_iff.1 h
    obtain rfl := hs.others j (by simp [hj])
    exact hs.update (by simp [hj]) fun _ ↦ hs.woken (.inl hn)
  | take j =>
    obtain ⟨v, hv⟩ := hs.returned_of_take h
    obtain ⟨hj, ⟨w, -, rfl⟩ | ⟨-, rfl⟩⟩ := step_take_iff.1 h
    · obtain rfl := hs.others j (by simp [hj])
      have hupdate : OnlyCaller j { s with caller := Function.update s.caller j (.returned w) } :=
        hs.update (by simp [hj]) fun _ ↦ hs.woken (.inr hj)
      exact ⟨hupdate.others, fun _ _ ↦ .inr ⟨w, Function.update_self ..⟩, hupdate.woken⟩
    · simp at hv
  | replace k v =>
    obtain ⟨-, rfl⟩ := step_replace_iff.1 h
    exact ⟨hs.others, fun _ _ ↦ .inl rfl, fun _ ↦ ⟨k, by simp⟩⟩
  | notify k =>
    obtain ⟨v, hk, rfl⟩ := step_notify_iff.1 h
    exact ⟨hs.others, fun _ _ ↦ hs.stored k (by simp [hk]), fun _ ↦ ⟨k, by simp⟩⟩

/-! ### One caller at a time -/

/-- `do_and_wait` calls do not overlap, and no `complete` is between its two steps when one
registers its listener. -/
def OneCaller (s : AsyncCall ι κ T) : AsyncAction ι κ T → Prop
  | .listen _ => (∀ j, ¬ s.Active j) ∧ ∀ k v, s.completer k ≠ .replaced v
  | .wait _ => False
  | _ => True

/-- What links the slot, the listeners and the completions while one call at a time is in
progress. -/
structure OneCallerInv (as : List (AsyncAction ι κ T)) (s : AsyncCall ι κ T) : Prop where
  listeners : s.ListenersOk
  listened : ∀ i, .listen i ∈ as ↔ s.caller i ≠ .idle
  unique : ∀ i j, s.Active i → s.Active j → i = j
  /-- A woken call, or one about to be woken, finds the last value in the slot. -/
  stored : ∀ i, s.Active i → (s.event.status i = .notified ∨ s.caller i = .resumed ∨
    ∃ k v, s.completer k = .replaced v) → ∃ v, s.result = some v ∧ StoredLast i v as
  /-- A completion that a call still waits for has not notified yet. -/
  pending : ∀ i k, s.event.status i = .waiting → ReplacedSince i k as →
    ∃ v, s.completer k = .replaced v
  noPanic : ∀ i, s.caller i ≠ .panicked

omit [DecidableEq ι] [DecidableEq κ] in
/-- A listener that waits is that of a call in progress. -/
theorem ListenersOk.active_of_waiting (h : s.ListenersOk) (hi : s.event.status i = .waiting) :
    s.Active i := by
  rcases (h i).1 (by simp [hi]) with hc | hc
  · exact Or.inl hc
  · exact Or.inr (Or.inl hc)

omit [DecidableEq ι] [DecidableEq κ] in
/-- Past the await there is no listener. -/
theorem ListenersOk.status_of_resumed (h : s.ListenersOk) (hi : s.caller i = .resumed) :
    s.event.status i = .idle := by
  by_contra hne
  rcases (h i).1 hne with hc | hc <;> simp [hi] at hc

/-- A call registers. It is the only one in progress, and it has no completion to expect yet, none
being half done. -/
theorem oneCallerInv_listen (hs : OneCallerInv as s) (hC : OneCaller s (.listen i))
    (h : s.step (.listen i) = some t) : OneCallerInv (as ++ [.listen i]) t := by
  have hlist := listenersOk_of_step hs.listeners h
  obtain ⟨hi, rfl⟩ := step_listen_iff.1 h
  obtain ⟨hidle, hdone⟩ := hC
  -- nobody else is in progress, and this call has not been woken
  have honly : ∀ j, j ≠ i → ¬ Active { s with
      event := s.event.register i
      caller := Function.update s.caller i .listening } j :=
    fun j hne hj ↦ hidle j ((Active.congr (Function.update_of_ne hne ..)).1 hj)
  refine ⟨hlist, fun j ↦ ?_, fun j j' hj hj' ↦ ?_, fun j hj hw ↦ ?_, fun j k hw hk ↦ ?_,
    noPanic_update hs.noPanic (by simp)⟩
  · rcases eq_or_ne j i with rfl | hne
    · simp
    · simpa [hne] using hs.listened j
  · rw [of_not_not fun hne ↦ honly j hne hj, of_not_not fun hne ↦ honly j' hne hj']
  · rw [of_not_not fun hne ↦ honly j hne hj] at hw
    rcases hw with hw | hw | ⟨k, v, hw⟩
    · simp [WaitSet.register_status] at hw
    · simp at hw
    · exact absurd hw (hdone k v)
  · have hji : j = i := of_not_not fun hne ↦ honly j hne (hlist.active_of_waiting hw)
    subst hji
    rcases hk.of_concat with hk | ⟨-, v, hv⟩
    · exact absurd hi ((hs.listened j).1 hk.listen_mem)
    · cases hv

/-- `f` runs, and nothing that the invariant looks at moves. -/
theorem oneCallerInv_runF (hs : OneCallerInv as s)
    (h : s.step (.runF i) = some t) : OneCallerInv (as ++ [.runF i]) t := by
  have hlist := listenersOk_of_step hs.listeners h
  obtain ⟨hi, rfl⟩ := step_runF_iff.1 h
  have hact : ∀ j, Active { s with
      caller := Function.update s.caller i .awaiting } j → s.Active j :=
    fun j ↦ Active.of_update (Or.inl hi) rfl
  refine ⟨hlist, listened_update hs.listened (by simp [hi]) (by simp) (by simp),
    fun j j' hj hj' ↦ hs.unique j j' (hact j hj) (hact j' hj'), fun j hj hw ↦ ?_,
    fun j k hw hk ↦ ?_, noPanic_update hs.noPanic (by simp)⟩
  · have hw' : s.event.status j = .notified ∨ s.caller j = .resumed ∨
        ∃ k v, s.completer k = .replaced v := by
      rcases hw with hw | hw | hw
      · exact Or.inl hw
      · rcases eq_or_ne j i with rfl | hne
        · simp at hw
        · exact Or.inr (Or.inl (by simpa [hne] using hw))
      · exact Or.inr (Or.inr hw)
    obtain ⟨v, hv, hlast⟩ := hs.stored j (hact j hj) hw'
    exact ⟨v, hv, hlast.concat (by simp)⟩
  · rcases hk.of_concat with hk | ⟨-, v, hv⟩
    · exact hs.pending j k hw hk
    · cases hv

/-- The await returns. The call had been notified, so that the last value is in the slot. -/
theorem oneCallerInv_resume (hs : OneCallerInv as s)
    (h : s.step (.resume i) = some t) : OneCallerInv (as ++ [.resume i]) t := by
  have hlist := listenersOk_of_step hs.listeners h
  obtain ⟨⟨hi, hn⟩, rfl⟩ := step_resume_iff.1 h
  have hact : ∀ j, Active { s with
      event := s.event.remove i
      caller := Function.update s.caller i .resumed } j → s.Active j :=
    fun j ↦ Active.of_update (Or.inr (Or.inl hi)) rfl
  refine ⟨hlist, listened_update hs.listened (by simp [hi]) (by simp) (by simp),
    fun j j' hj hj' ↦ hs.unique j j' (hact j hj) (hact j' hj'), fun j hj _ ↦ ?_,
    fun j k hw hk ↦ ?_, noPanic_update hs.noPanic (by simp)⟩
  · -- the call in progress is the one that has just been woken
    obtain rfl := hs.unique j i (hact j hj) (Or.inr (Or.inl hi))
    obtain ⟨v, hv, hlast⟩ := hs.stored j (hact j hj) (Or.inl hn)
    exact ⟨v, hv, hlast.concat (by simp)⟩
  · rcases hk.of_concat with hk | ⟨-, v, hv⟩
    · rcases eq_or_ne j i with rfl | hne
      · simp [WaitSet.remove_status] at hw
      · exact hs.pending j k (by simpa [WaitSet.remove_status, hne] using hw) hk
    · cases hv

/-- The slot is taken, and was full. No call is in progress behind it. -/
theorem oneCallerInv_take (hs : OneCallerInv as s)
    (h : s.step (.take i) = some t) : OneCallerInv (as ++ [.take i]) t := by
  have hlist := listenersOk_of_step hs.listeners h
  obtain ⟨hi, hcase⟩ := step_take_iff.1 h
  have hacti : s.Active i := Or.inr (Or.inr hi)
  obtain ⟨v, hv, -⟩ := hs.stored i hacti (Or.inr (Or.inl hi))
  obtain ⟨w, -, rfl⟩ | ⟨hnone, -⟩ := hcase
  swap
  · rw [hv] at hnone
    cases hnone
  have hidle : ∀ j, ¬ Active { s with
      result := none
      caller := Function.update s.caller i (.returned w) } j := by
    intro j hj
    rcases eq_or_ne j i with rfl | hne
    · simp [Active] at hj
    · exact hne (hs.unique j i ((Active.congr (Function.update_of_ne hne ..)).1 hj) hacti)
  exact ⟨hlist, listened_update hs.listened (by simp [hi]) (by simp) (by simp),
    fun j j' hj _ ↦ absurd hj (hidle j), fun j hj _ ↦ absurd hj (hidle j),
    fun j k hw _ ↦ absurd (hlist.active_of_waiting hw) (hidle j),
    noPanic_update hs.noPanic (by simp)⟩

/-- A completion stores. Its value is the last one from here on, for the call in progress as well,
and the notification is still to come. -/
theorem oneCallerInv_replace (hs : OneCallerInv as s)
    (h : s.step (.replace k v) = some t) : OneCallerInv (as ++ [.replace k v]) t := by
  have hlist := listenersOk_of_step hs.listeners h
  obtain ⟨hk, rfl⟩ := step_replace_iff.1 h
  refine ⟨hlist, fun j ↦ by simpa using hs.listened j, hs.unique, fun j hj _ ↦ ?_,
    fun j k' hw hk' ↦ ?_, hs.noPanic⟩
  · have hmem : .listen j ∈ as := (hs.listened j).2 (by
      rcases hj with hj | hj | hj <;> simp_all)
    exact ⟨v, rfl, StoredLast.of_replace hmem⟩
  · rcases eq_or_ne k' k with rfl | hne
    · exact ⟨v, by simp⟩
    · rcases hk'.of_concat with hk' | ⟨-, w, hw'⟩
      · obtain ⟨w, hw'⟩ := hs.pending j k' hw hk'
        exact ⟨w, by simpa [hne] using hw'⟩
      · cases hw'
        exact absurd rfl hne

/-- A completion notifies. Nobody waits any more, and the value that it has stored, or a later one,
is in the slot. -/
theorem oneCallerInv_notify (hs : OneCallerInv as s)
    (h : s.step (.notify k) = some t) : OneCallerInv (as ++ [.notify k]) t := by
  have hlist := listenersOk_of_step hs.listeners h
  obtain ⟨v, hk, rfl⟩ := step_notify_iff.1 h
  refine ⟨hlist, fun j ↦ by simpa using hs.listened j, hs.unique, fun j hj _ ↦ ?_,
    fun j k' hw _ ↦ absurd hw (WaitSet.notifyAll_status_ne_waiting _ _), hs.noPanic⟩
  -- the completion that notifies had stored its value
  obtain ⟨w, hw, hlast⟩ := hs.stored j hj (Or.inr (Or.inr ⟨k, v, hk⟩))
  exact ⟨w, hw, hlast.concat (by simp)⟩

/-- The step lemma of the discipline. -/
theorem oneCallerInv_of_step (hs : OneCallerInv as s) (hC : OneCaller s a)
    (h : s.step a = some t) : OneCallerInv (as ++ [a]) t := by
  cases a with
  | listen i => exact oneCallerInv_listen hs hC h
  | runF i => exact oneCallerInv_runF hs h
  | wait i => exact hC.elim
  | resume i => exact oneCallerInv_resume hs h
  | take i => exact oneCallerInv_take hs h
  | replace k v => exact oneCallerInv_replace hs h
  | notify k => exact oneCallerInv_notify hs h

/-- The run lemma of the discipline. -/
theorem oneCallerInv_of_run (hC : (machine ι κ T).AllSteps OneCaller new as)
    (h : (machine ι κ T).run new as = some s) : OneCallerInv as s := by
  have hinit : OneCallerInv [] (new : AsyncCall ι κ T) := by
    refine ⟨fun i ↦ by simp [new], fun i ↦ by simp [new], ?_, ?_, ?_, fun i ↦ by simp [new]⟩ <;>
      simp [new, Active]
  exact (machine ι κ T).run_invariant_of_allSteps hinit
    (fun _ _ _ _ _ hs hC ht ↦ oneCallerInv_of_step hs hC ht) hC h

/-- **One caller at a time is served correctly**: the slot is never empty when it is taken, the
value returned is the one stored last and was stored after the call's `listen`, and a completion
that stored after the `listen` and has returned has woken the call. -/
theorem doAndWait_oneCaller (hC : (machine ι κ T).AllSteps OneCaller new as)
    (h : (machine ι κ T).run new as = some s) :
    (∀ i, s.caller i ≠ .panicked) ∧
      (∀ as₁ i as₂, as = as₁ ++ .take i :: as₂ →
        ∃ v, s.caller i = .returned v ∧ StoredLast i v as₁) ∧
      ∀ i k, ReplacedSince i k as → (∃ v, s.completer k = .returned v) →
        s.event.status i ≠ .waiting := by
  have hinv := oneCallerInv_of_run hC h
  refine ⟨hinv.noPanic, ?_, ?_⟩
  · rintro as₁ i as₂ rfl
    obtain ⟨t, ht, hrest⟩ := (machine ι κ T).run_append_eq_some_iff.1 h
    obtain ⟨u, hu, hrun⟩ := Option.bind_eq_some_iff.1 hrest
    have hinvt := oneCallerInv_of_run hC.of_append ht
    obtain ⟨hi, hcase⟩ := step_take_iff.1 hu
    obtain ⟨v, hv, hlast⟩ := hinvt.stored i (Or.inr (Or.inr hi)) (Or.inr (Or.inl hi))
    refine ⟨v, caller_returned_of_run hrun ?_, hlast⟩
    obtain ⟨w, hw, rfl⟩ | ⟨hnone, -⟩ := hcase
    · rw [hv] at hw
      cases hw
      simp
    · rw [hv] at hnone
      cases hnone
  · rintro i k hk ⟨v, hv⟩ hw
    obtain ⟨w, hw'⟩ := hinv.pending i k hw hk
    rw [hv] at hw'
    cases hw'

/-- A late completion leaves `7` in the slot before the call; the call returns `8`. -/
def staleRun : List (AsyncAction ℕ ℕ ℕ) :=
  [.replace 0 7, .notify 0, .listen 0, .runF 0, .replace 1 8, .notify 1, .resume 0, .take 0]

/-- The call is answered with the value stored since its `listen`, not with the one that was there.
-/
theorem doAndWait_oneCaller_staleRun : ∃ s, (machine ℕ ℕ ℕ).run new staleRun = some s ∧
    s.caller 0 = .returned 8 ∧ (∀ i, s.caller i ≠ .panicked) ∧
      ∃ v, s.caller 0 = .returned v ∧ StoredLast 0 v (staleRun.take 7) := by
  have hC : (machine ℕ ℕ ℕ).AllSteps OneCaller new staleRun := by
    refine .cons trivial rfl <| .cons trivial rfl <| .cons ⟨?_, ?_⟩ rfl <|
      .cons trivial rfl <| .cons trivial rfl <| .cons trivial rfl <| .cons trivial rfl <|
        .cons trivial rfl .nil
    · intro j
      simp [Active, new]
    · intro k v
      rcases eq_or_ne k 0 with rfl | hne <;> simp [new, *]
  obtain ⟨hpanic, htake, -⟩ := doAndWait_oneCaller hC rfl
  exact ⟨_, rfl, rfl, hpanic, htake (staleRun.take 7) 0 [] rfl⟩

end AsyncCall

end Esp32A2dpPlayer
