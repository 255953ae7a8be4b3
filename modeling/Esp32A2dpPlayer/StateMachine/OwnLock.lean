import Esp32A2dpPlayer.StateMachine.MainLoop

/-!
# The state machine and its own lock

The task holds the guard of the shared machine while a state executes, and hands the machine to
the state as a plain reference. Playback uses that reference to initialise NVS, and at its end
locks the machine **again** through its own handle. Every handle is a clone of the one `Arc`
(`handlesOk_of_run`), so the second lock waits for the first guard, and the task that would
release it is the one that waits.

Playback gets there whenever it gets through its search: when the search times out, and when a
device has been found and played. `no_ownDeadlock_iff` says that these are the only ways, and
that both lead there.
-/

namespace Esp32A2dpPlayer

/-- The part of Playback after the search and the playback. -/
def PlaybackPc.Late : PlaybackPc → Prop
  | .deinit | .lockMachine | .postDeinit => True
  | _ => False

/-- The places behind the search and the playback are three. -/
theorem PlaybackPc.late_cases {pc : PlaybackPc} (h : pc.Late) :
    pc = .deinit ∨ pc = .lockMachine ∨ pc = .postDeinit := by
  cases pc <;> simp_all [Late]

/-- The answers with which Playback is through with the search and the playback. -/
def MainAction.Ends (a : MainAction) : Prop :=
  a = .discovered none ∨ a = .playbackTask (.ok ())

/-- The handle of the state that is executing, or that has just been returned. -/
def MainPc.handle? : MainPc → Option MachineArc
  | .boot c => some c.machine
  | .wifiConnect c _ => some c.machine
  | .playback c _ => some c.machine
  | .finish next => some next.machine
  | .newLock | .runLock | .execute | .panicked => none

/-- Outside `run_state_machine`'s guard. -/
def MainPc.outside : MainPc → Bool
  | .newLock | .runLock => true
  | _ => false

/-- Past the search and the playback of a Playback execution. -/
def MainPc.Late : MainPc → Prop
  | .playback _ pc => pc.Late
  | _ => False

namespace MainLoop

variable {s t : MainLoop} {a : MainAction} {reentrant : Bool}

/-- What one early step of Playback does. -/
structure EarlyStep (c : ConcreteState Playback) (s : MainLoop) (a : MainAction)
    (t : MainLoop) : Prop where
  keeps : Keeps s t
  guards : t.guards = s.guards
  pc : (t.pc = .panicked ∧ ¬ a.Ends) ∨ (t.pc = .playback c .deinit ∧ a.Ends) ∨
    ∃ pc', t.pc = .playback c pc' ∧ ¬ pc'.Late ∧ ¬ a.Ends

/-- Before them a step goes on in Playback, panics, or gets through, and leaves the machine and the
guards alone. -/
theorem playbackStep_early {c : ConcreteState Playback} {pc : PlaybackPc} (hpc : ¬ pc.Late)
    (h : s.playbackStep reentrant c pc a = some t) : EarlyStep c s a t := by
  have hunwrap : ∀ {ε : Type} (ret : Except ε Unit) (u : MainLoop) pc', ¬ a.Ends → ¬ pc'.Late →
      Keeps s u → u.guards = s.guards → some (u.unwrapTo ret (.playback c pc')) = some t →
        EarlyStep c s a t := by
    rintro ε ret u pc' ha hlate hkeeps hguards ⟨⟩
    refine ⟨⟨by simpa using hkeeps.1, by simpa using hkeeps.2⟩, by simpa using hguards, ?_⟩
    obtain ⟨-, hp⟩ | ⟨-, hp⟩ := u.unwrapTo_pc ret (.playback c pc')
    · exact Or.inl ⟨hp, ha⟩
    · exact Or.inr (Or.inr ⟨pc', hp, hlate, ha⟩)
  cases pc with
  | sdInit =>
    cases a with
    | call ret => exact hunwrap ret s .preInit (by simp [MainAction.Ends]) id ⟨rfl, rfl⟩ rfl h
    | _ => cases h
  | preInit =>
    cases a with
    | nvsInit calls =>
      exact hunwrap _ { s with stateMachine := { s.stateMachine with
        esp32 := (s.stateMachine.esp32.nvsInit calls).2 } } .init (by simp [MainAction.Ends]) id
          ⟨rfl, rfl⟩ rfl h
    | _ => cases h
  | init =>
    cases a with
    | call ret =>
      exact hunwrap ret s .startDiscovery (by simp [MainAction.Ends]) id ⟨rfl, rfl⟩ rfl h
    | _ => cases h
  | startDiscovery =>
    cases a with
    | call ret => exact hunwrap ret s .discover (by simp [MainAction.Ends]) id ⟨rfl, rfl⟩ rfl h
    | _ => cases h
  | discover =>
    cases a with
    | discovered found =>
      rcases found with - | dev <;> cases h
      · exact ⟨⟨rfl, rfl⟩, rfl, Or.inr (Or.inl ⟨rfl, Or.inl rfl⟩)⟩
      · exact ⟨⟨rfl, rfl⟩, rfl, Or.inr (Or.inr ⟨_, rfl, id, by simp [MainAction.Ends]⟩)⟩
    | discoveryPanic =>
      cases h
      exact ⟨⟨rfl, rfl⟩, rfl, Or.inl ⟨rfl, by simp [MainAction.Ends]⟩⟩
    | _ => cases h
  | name dev =>
    cases a with
    | run =>
      simp only [playbackStep] at h
      split at h <;> cases h
      · exact ⟨⟨rfl, rfl⟩, rfl, Or.inr (Or.inr ⟨_, rfl, id, by simp [MainAction.Ends]⟩)⟩
      · exact ⟨⟨rfl, rfl⟩, rfl, Or.inl ⟨rfl, by simp [MainAction.Ends]⟩⟩
    | _ => cases h
  | cancel dev =>
    cases a with
    | call ret =>
      cases h
      exact ⟨⟨rfl, rfl⟩, rfl, Or.inr (Or.inr ⟨_, rfl, id, by simp [MainAction.Ends]⟩)⟩
    | _ => cases h
  | connect dev =>
    cases a with
    | call ret => exact hunwrap ret s .play (by simp [MainAction.Ends]) id ⟨rfl, rfl⟩ rfl h
    | _ => cases h
  | play =>
    cases a with
    | playbackTask ret =>
      obtain rfl := Option.some.inj h
      refine ⟨⟨by simp, by simp⟩, by simp, ?_⟩
      rcases ret with e | v
      · exact Or.inl ⟨rfl, by simp [MainAction.Ends]⟩
      · exact Or.inr (Or.inl ⟨rfl, Or.inr rfl⟩)
    | _ => cases h
  | deinit | lockMachine | postDeinit => exact absurd trivial hpc

/-- `bluetooth.deinit()` does nothing that could fail. -/
theorem playbackStep_deinit {c : ConcreteState Playback}
    (h : s.playbackStep reentrant c .deinit a = some t) :
    a = .run ∧ t = { s with pc := .playback c .lockMachine } := by
  cases a <;> simp_all [playbackStep, bluetoothDeinit, unwrapTo]

/-- The second lock takes a guard more, if the mutex allows it. -/
theorem playbackStep_lockMachine {c : ConcreteState Playback}
    (h : s.playbackStep reentrant c .lockMachine a = some t) :
    a = .lock ∧ s.canLock reentrant c.machine = true ∧
      t = { s with guards := c.machine :: s.guards, pc := .playback c .postDeinit } := by
  cases a <;> simp_all [playbackStep]

/-- Behind the second lock Playback would return Boot, or panic. -/
theorem playbackStep_postDeinit {c : ConcreteState Playback}
    (h : s.playbackStep reentrant c .postDeinit a = some t) :
    (∃ ret, a = .call ret) ∧ Keeps s t ∧ t.guards = s.guards.erase c.machine ∧
      (t.pc = .panicked ∨ t.pc = .finish (.boot (.bootFromPlayback c))) := by
  cases a with
  | call ret =>
    obtain rfl := Option.some.inj h
    refine ⟨⟨ret, rfl⟩, ⟨by simp, by simp⟩, by simp, ?_⟩
    obtain ⟨-, hp⟩ | ⟨-, hp⟩ := unwrapTo_pc { s with
      stateMachine := { s.stateMachine with esp32 := (s.stateMachine.esp32.nvsDeinit ret).2 }
      guards := s.guards.erase c.machine } (s.stateMachine.esp32.nvsDeinit ret).1
        (.finish (.boot (.bootFromPlayback c)))
    · exact Or.inl hp
    · exact Or.inr hp
  | _ => simp [playbackStep] at h

/-- WifiConnect neither searches nor plays. -/
theorem wifiStep_not_ends {c : ConcreteState WifiConnect} {pc : WifiPc}
    (h : s.wifiStep c pc a = some t) : ¬ a.Ends := by
  rintro (rfl | rfl) <;> cases pc <;> simp [wifiStep] at h

/-! ### One machine, one handle -/

/-- Every handle of a state is a clone of the one `main` holds. -/
structure HandlesOk (s : MainLoop) : Prop where
  stored : ∀ st, s.stateMachine.state = some st → st.machine = s.arc
  current : ∀ arc, s.pc.handle? = some arc → arc = s.arc

/-- A step that stores no state, and goes on with the same handle. -/
theorem HandlesOk.of_keeps (hs : HandlesOk s) (hkeeps : Keeps s t)
    (hpc : t.pc.handle? = none ∨ t.pc.handle? = some s.arc) : HandlesOk t := by
  refine ⟨fun st hst ↦ ?_, fun arc harc ↦ ?_⟩
  · rw [hkeeps.2] at hst
    exact (hs.stored st hst).trans hkeeps.1.symm
  · rcases hpc with hpc | hpc
    · rw [hpc] at harc
      cases harc
    · rw [hpc] at harc
      exact (Option.some.inj harc).symm.trans hkeeps.1.symm

/-- A state that is taken out brings its own handle. -/
theorem handlesOk_execute (hs : HandlesOk s) : HandlesOk s.execute := by
  rcases hst : s.stateMachine.state with - | (c | c | c)
  all_goals
    simp only [execute, hst]
    refine ⟨by simp, fun arc harc ↦ ?_⟩
  · cases harc
  all_goals
    rw [← Option.some.inj harc]
    exact hs.stored _ hst

/-- Playback goes on with its handle, and hands it to the state it returns. -/
theorem handlesOk_playbackStep {c : ConcreteState Playback} {pc : PlaybackPc}
    (hs : HandlesOk s) (hpc : s.pc = .playback c pc)
    (h : s.playbackStep reentrant c pc a = some t) : HandlesOk t := by
  have hc : some c.machine = some s.arc :=
    congrArg some (hs.current _ (by rw [hpc]; rfl))
  by_cases hlate : pc.Late
  · obtain rfl | rfl | rfl := PlaybackPc.late_cases hlate
    · obtain ⟨-, rfl⟩ := playbackStep_deinit h
      exact hs.of_keeps ⟨rfl, rfl⟩ (Or.inr hc)
    · obtain ⟨-, -, rfl⟩ := playbackStep_lockMachine h
      exact hs.of_keeps ⟨rfl, rfl⟩ (Or.inr hc)
    · obtain ⟨-, hkeeps, -, hp | hp⟩ := playbackStep_postDeinit h
      · exact hs.of_keeps hkeeps (Or.inl (by rw [hp]; rfl))
      · exact hs.of_keeps hkeeps (Or.inr (by rw [hp]; exact hc))
  · obtain ⟨hkeeps, -, ⟨hp, -⟩ | ⟨hp, -⟩ | ⟨pc', hp, -⟩⟩ := playbackStep_early hlate h
    · exact hs.of_keeps hkeeps (Or.inl (by rw [hp]; rfl))
    · exact hs.of_keeps hkeeps (Or.inr (by rw [hp]; exact hc))
    · exact hs.of_keeps hkeeps (Or.inr (by rw [hp]; exact hc))

/-- The step lemma of the handles. -/
theorem handlesOk_of_step (hs : HandlesOk s) (h : s.step reentrant a = some t) :
    HandlesOk t := by
  unfold step at h
  split at h
  · split at h
    · cases h
      exact ⟨fun st hst ↦ by rw [← Option.some.inj hst]; rfl, fun arc harc ↦ by cases harc⟩
    · cases h
  · split at h
    · cases h
      exact hs.of_keeps ⟨rfl, rfl⟩ (Or.inl rfl)
    · cases h
  · cases h
    exact handlesOk_execute hs
  next c hpc =>
    cases h
    exact hs.of_keeps ⟨rfl, rfl⟩ (Or.inr (congrArg some (hs.current _ (by rw [hpc]; rfl))))
  next c pc hpc =>
    have hc : some c.machine = some s.arc :=
      congrArg some (hs.current _ (by rw [hpc]; rfl))
    obtain ⟨hkeeps, -, hp | ⟨pc', hp⟩ | hp⟩ := wifiStep_cases h
    · exact hs.of_keeps hkeeps (Or.inl (by rw [hp]; rfl))
    · exact hs.of_keeps hkeeps (Or.inr (by rw [hp]; exact hc))
    · exact hs.of_keeps hkeeps (Or.inr (by rw [hp]; exact hc))
  next c pc hpc =>
    exact handlesOk_playbackStep hs hpc h
  next next hpc =>
    cases h
    refine ⟨fun st hst ↦ ?_, fun arc harc ↦ by cases harc⟩
    rw [← Option.some.inj hst]
    exact hs.current _ (by rw [hpc]; rfl)
  · cases h

/-- Every handle is a clone of the one `Arc`, in every run and whatever the mutex allows. -/
theorem handlesOk_of_run {arc : MachineArc} {as : List MainAction}
    (h : (machine reentrant).run (start arc) as = some s) : HandlesOk s := by
  have hstart : HandlesOk (start arc) := by
    refine ⟨fun st hst ↦ ?_, fun arc harc ↦ ?_⟩
    · cases hst
    · cases harc
  exact (machine reentrant).run_invariant (I := fun _ s ↦ HandlesOk s) hstart
    (fun _ _ _ _ _ hs ht ↦ handlesOk_of_step hs ht) h

/-! ### The second lock -/

/-- The mutex the task waits for. -/
def awaits (s : MainLoop) : Option MachineArc :=
  match s.pc with
  | .newLock | .runLock => some s.arc
  | .playback c .lockMachine => some c.machine
  | _ => none

/-- The task waits for a mutex whose guard it holds itself. -/
def OwnDeadlock (s : MainLoop) : Prop := ∃ arc, s.awaits = some arc ∧ arc ∈ s.guards

/-- The guards of the task. `ended` says whether Playback has got through. -/
structure LockInv (ended : Prop) (s : MainLoop) : Prop where
  handles : HandlesOk s
  guards : s.guards = if s.pc.outside then [] else [s.arc]
  late : s.pc.Late ↔ ended
  notPost : ∀ c, s.pc ≠ .playback c .postDeinit

variable {ended : Prop}

/-- The step lemma of the lock, in Playback: it does not get past the second lock, and gets late
only with an answer that ends the search or the playback. -/
theorem lockInv_playbackStep {c : ConcreteState Playback} {pc : PlaybackPc}
    (hs : LockInv ended s) (hpc : s.pc = .playback c pc)
    (h : s.playbackStep false c pc a = some t) (ht : HandlesOk t) :
    LockInv (ended ∨ a.Ends) t := by
  have hguards : s.guards = [s.arc] := by rw [hs.guards, hpc]; rfl
  by_cases hlate : pc.Late
  · have hended : ended := hs.late.1 (by rw [hpc]; exact hlate)
    obtain rfl | rfl | rfl := PlaybackPc.late_cases hlate
    · obtain ⟨-, rfl⟩ := playbackStep_deinit h
      exact ⟨ht, hguards, iff_of_true trivial (Or.inl hended), nofun⟩
    · -- the handle of the state is the one whose guard the task holds
      have hc : c.machine = s.arc := hs.handles.current _ (by rw [hpc]; rfl)
      obtain ⟨-, hcan, -⟩ := playbackStep_lockMachine h
      simp [canLock, hguards, hc] at hcan
    · exact absurd hpc (hs.notPost c)
  · have hended : ¬ ended := fun he ↦ hlate (by simpa [hpc, MainPc.Late] using hs.late.2 he)
    obtain ⟨⟨harc, -⟩, hguards', hp⟩ := playbackStep_early hlate h
    refine ⟨ht, ?_, ?_, ?_⟩
    · rw [hguards', hguards, harc]
      obtain ⟨hp, -⟩ | ⟨hp, -⟩ | ⟨pc', hp, -⟩ := hp <;> rw [hp] <;> rfl
    · obtain ⟨hp, hno⟩ | ⟨hp, hends⟩ | ⟨pc', hp, hlate', hno⟩ := hp
      · rw [hp]
        exact iff_of_false id (not_or.2 ⟨hended, hno⟩)
      · rw [hp]
        exact iff_of_true trivial (Or.inr hends)
      · rw [hp]
        exact iff_of_false hlate' (not_or.2 ⟨hended, hno⟩)
    · intro c' hp'
      obtain ⟨hp, -⟩ | ⟨hp, -⟩ | ⟨pc', hp, hlate', -⟩ := hp
      · simp [hp] at hp'
      · simp [hp] at hp'
      · rw [hp] at hp'
        cases hp'
        exact hlate' trivial

/-- The step lemma of the lock. -/
theorem lockInv_of_step (hs : LockInv ended s) (h : s.step false a = some t) :
    LockInv (ended ∨ a.Ends) t := by
  have hhandles := handlesOk_of_step hs.handles h
  have hguards := hs.guards
  -- outside of Playback nothing has ended, and nothing ends
  have hearly : ∀ pc, s.pc = pc → ¬ pc.Late → ¬ a.Ends → ¬ (ended ∨ a.Ends) := by
    rintro pc rfl hlate hno (he | he)
    · exact hlate (hs.late.2 he)
    · exact hno he
  unfold step at h
  split at h
  next hpc =>
    rw [hpc] at hguards
    split at h
    · cases h
      exact ⟨hhandles, hguards, iff_of_false id (hearly _ hpc id (by simp [MainAction.Ends])),
        nofun⟩
    · cases h
  next hpc =>
    rw [hpc] at hguards
    split at h
    · cases h
      exact ⟨hhandles, congrArg _ hguards,
        iff_of_false id (hearly _ hpc id (by simp [MainAction.Ends])), nofun⟩
    · cases h
  next hpc =>
    rw [hpc] at hguards
    cases h
    have hno := hearly _ hpc id (by simp [MainAction.Ends])
    rcases hst : s.stateMachine.state with - | (c | c | c)
    all_goals
      simp only [execute, hst] at hhandles ⊢
      exact ⟨hhandles, hguards, iff_of_false id hno, nofun⟩
  next c hpc =>
    rw [hpc] at hguards
    cases h
    exact ⟨hhandles, hguards, iff_of_false id (hearly _ hpc id (by simp [MainAction.Ends])),
      nofun⟩
  next c pc hpc =>
    rw [hpc] at hguards
    obtain ⟨⟨harc, -⟩, hkept, hp⟩ := wifiStep_cases h
    have hno := hearly _ hpc id (wifiStep_not_ends h)
    rw [← harc, ← hkept] at hguards
    obtain hp | ⟨pc', hp⟩ | hp := hp
    all_goals exact ⟨hhandles, by rw [hp]; exact hguards, by rw [hp]; exact iff_of_false id hno,
      by simp [hp]⟩
  next c pc hpc =>
    exact lockInv_playbackStep hs hpc h hhandles
  next next hpc =>
    rw [hpc] at hguards
    cases h
    refine ⟨hhandles, ?_, iff_of_false id (hearly _ hpc id (by simp [MainAction.Ends])), nofun⟩
    have herase : s.guards.erase s.arc = [] := by
      rw [hguards]
      exact List.erase_cons_head s.arc []
    exact herase
  · cases h

variable {arc : MachineArc} {as : List MainAction}

/-- The run lemma of the lock. -/
theorem lockInv_of_run (h : (machine false).run (start arc) as = some s) :
    LockInv (∃ a ∈ as, a.Ends) s := by
  have hstart : HandlesOk (start arc) :=
    handlesOk_of_run (show (machine false).run (start arc) [] = some _ from rfl)
  refine (machine false).run_invariant (I := fun as s ↦ LockInv (∃ a ∈ as, a.Ends) s)
    ⟨hstart, rfl, by simp [start, MainPc.Late], nofun⟩ ?_ h
  intro as s a t _ hs ht
  have hstep := lockInv_of_step hs ht
  simpa [or_and_right, exists_or] using hstep

/-- A task that is late in Playback waits for its own guard, or does so after one more step. -/
theorem LockInv.exists_ownDeadlock (hs : LockInv ended s) (hlate : s.pc.Late) :
    ∃ bs u, (∀ b ∈ bs, b = .run) ∧ (machine false).run s bs = some u ∧ u.OwnDeadlock := by
  rcases hpc : s.pc with - | - | - | c | ⟨c, pc⟩ | ⟨c, pc⟩ | next | -
  case playback =>
    rw [hpc] at hlate
    have hc : c.machine = s.arc := hs.handles.current _ (by rw [hpc]; rfl)
    have hmem : c.machine ∈ s.guards := by
      rw [hs.guards, hpc, hc]
      exact List.mem_singleton_self _
    obtain rfl | rfl | rfl := PlaybackPc.late_cases hlate
    · exact ⟨[.run], { s with pc := .playback c .lockMachine }, by simp,
        by simp [machine, step, hpc, playbackStep, bluetoothDeinit, unwrapTo],
        c.machine, rfl, hmem⟩
    · exact ⟨[], s, by simp, rfl, c.machine, by simp [awaits, hpc], hmem⟩
    · exact absurd hpc (hs.notPost c)
  all_goals
    rw [hpc] at hlate
    exact False.elim hlate

/-- A task that is not late in Playback does not wait for its own guard. -/
theorem LockInv.not_ownDeadlock (hs : LockInv ended s) (hlate : ¬ s.pc.Late) :
    ¬ s.OwnDeadlock := by
  rintro ⟨arc, hawaits, hmem⟩
  have hguards := hs.guards
  -- the two locks of `main` are made without a guard
  unfold awaits at hawaits
  split at hawaits
  next hpc =>
    simp [hguards, hpc, MainPc.outside] at hmem
  next hpc =>
    simp [hguards, hpc, MainPc.outside] at hmem
  next c hpc =>
    rw [hpc] at hlate
    exact hlate trivial
  · cases hawaits

/-- **When the task waits for its own guard.** Every handle is a clone of the one `Arc`, and a
run leads to a state where the task waits for the mutex it holds — as it stands, or by going on
without further answers from outside — if and only if a search of the run has timed out or a
playback of the run has succeeded. -/
theorem no_ownDeadlock_iff (h : (machine false).run (start arc) as = some s) :
    HandlesOk s ∧ ((∀ bs u, (∀ b ∈ bs, b = .run) → (machine false).run s bs = some u →
        ¬ u.OwnDeadlock) ↔
      .discovered none ∉ as ∧ .playbackTask (.ok ()) ∉ as) := by
  have hinv := lockInv_of_run h
  have hcond : (.discovered none ∉ as ∧ .playbackTask (.ok ()) ∉ as) ↔
      ¬ ∃ a ∈ as, a.Ends := by
    simp only [MainAction.Ends, and_or_left, exists_or, exists_eq_right, not_or]
  refine ⟨hinv.handles, ?_⟩
  rw [hcond]
  constructor
  · intro hall hended
    obtain ⟨bs, u, hbs, hrun, hdead⟩ := hinv.exists_ownDeadlock (hinv.late.2 hended)
    exact hall bs u hbs hrun hdead
  · intro hended bs u hbs hrun
    have hinv' := lockInv_of_run ((machine false).run_append_eq_some_iff.2 ⟨s, h, hrun⟩)
    refine hinv'.not_ownDeadlock fun hlate ↦ ?_
    obtain ⟨a, hmem, hends⟩ := hinv'.late.1 hlate
    rcases List.mem_append.1 hmem with hmem | hmem
    · exact hended ⟨a, hmem, hends⟩
    · obtain rfl := hbs a hmem
      simp [MainAction.Ends] at hends

/-- The first lap up to the discovery loop. -/
def firstLap : List MainAction :=
  [.lock, .lock, .run, .run, .run, .lock, .run, .run, .run, .call (.ok ()), .call (.ok ()),
    .call (.ok ()), .call (.ok ()), .isConnected (.ok true), .run, .lock, .run, .call (.ok ()),
    .nvsInit ⟨.ok (), .ok (), .ok ()⟩, .call (.ok ()), .call (.ok ())]

/-- Before the search has ended, nothing waits. -/
theorem no_ownDeadlock_firstLap : ∃ s, (machine false).run (start 0) firstLap = some s ∧
    ∀ bs u, (∀ b ∈ bs, b = .run) → (machine false).run s bs = some u → ¬ u.OwnDeadlock := by
  obtain ⟨s, hs⟩ : ∃ s, (machine false).run (start 0) firstLap = some s := ⟨_, rfl⟩
  exact ⟨s, hs, (no_ownDeadlock_iff hs).2.2 (by simp [firstLap])⟩

/-- A search that times out ends in a wait of the task for itself. -/
theorem ownDeadlock_timeout : ¬ ∀ (as : List MainAction) (s : MainLoop),
    (machine false).run (start 0) as = some s → ¬ s.OwnDeadlock := by
  intro hall
  exact hall (firstLap ++ [.discovered none, .run]) _ rfl ⟨0, rfl, List.mem_cons_self⟩

end MainLoop

end Esp32A2dpPlayer
