import Esp32A2dpPlayer.StateMachine.OwnLock

/-!
# Lap after lap of the state machine

Boot, WifiConnect, Playback, and Boot again. A lap is over when Playback has returned Boot and
`StateMachine::execute` has stored it. Here the second lock of Playback gets its mutex, so that
laps can follow one another, and a driver call may return anything: where it fails the task
panics.

Every lap finds a stored state and the count of NVS at zero. WifiConnect takes the modem and the
event loop out of the machine, and nothing puts them back. So what a lap needs is there exactly
as long as WifiConnect is not entered after a completed lap (`lapReady_iff`).
-/

namespace Esp32A2dpPlayer

/-- The step ends a lap: Boot, as Playback has returned it, is stored. -/
def MainLoop.lapEnds (s : MainLoop) (_ : MainAction) : Option Unit :=
  match s.pc with
  | .finish (.boot _) => some ()
  | _ => none

namespace MainLoop

/-- The laps completed by a run from `main`. -/
def laps (arc : MachineArc) (as : List MainAction) : ℕ :=
  ((machine true).outputs lapEnds (start arc) as).length

/-- At `state.unwrap()`, `modem.take().unwrap()` or `eventloop.take().unwrap()`. -/
def AtUnwrap (s : MainLoop) : Prop :=
  s.pc = .execute ∨ (∃ c, s.pc = .wifiConnect c .takeModem) ∨
    ∃ c, s.pc = .wifiConnect c .takeEventloop

/-- What the next lap needs is there. -/
structure LapReady (s : MainLoop) : Prop where
  state : s.pc = .execute → s.stateMachine.state.isSome
  wifi : ∀ c, s.pc = .wifiConnect c .takeModem →
    s.stateMachine.modem.isSome ∧ s.stateMachine.eventloop.isSome
  unwraps : s.AtUnwrap → ∀ t, s.step true .run = some t → t.pc ≠ .panicked
  nvs : ∀ c, s.pc = .execute → s.stateMachine.state = some (.boot c) →
    s.stateMachine.esp32.nvsInitializedCount = 0

/-- WifiConnect is entered, and a lap has been completed before. -/
def WifiAgain (n : ℕ) (s : MainLoop) : Prop :=
  (∃ c, s.pc = .wifiConnect c .takeModem) ∧ 0 < n

/-! ### The invariant -/

/-- WifiConnect has taken what there is one of. -/
def Taken (m : PlayerMachine) : Prop := m.modem = none ∧ m.eventloop = none

/-- The machine before the given state executes. Up to WifiConnect of the first lap it has its
modem and its event loop, and from then on neither. -/
def Before (n : ℕ) (m : PlayerMachine) : StateEnum → Prop
  | .boot _ | .wifiConnect _ => m.esp32.nvsInitializedCount = 0 ∧
      (n = 0 → m.modem.isSome ∧ m.eventloop.isSome) ∧ (0 < n → Taken m)
  | .playback _ => m.esp32.nvsInitializedCount = 0 ∧ Taken m

/-- The count of NVS in Playback. -/
def nvsCountAt : PlaybackPc → UInt32
  | .sdInit | .preInit => 0
  | _ => 1

/-- What holds at each place of the task after `n` laps. -/
def LapInv (n : ℕ) (s : MainLoop) : Prop :=
  match s.pc with
  | .newLock => n = 0 ∧ s.stateMachine.esp32.nvsInitializedCount = 0 ∧
      s.stateMachine.modem.isSome ∧ s.stateMachine.eventloop.isSome
  | .runLock | .execute =>
      ∃ st, s.stateMachine.state = some st ∧ Before n s.stateMachine st
  | .boot c => Before n s.stateMachine (.boot c)
  | .wifiConnect c .takeModem => Before n s.stateMachine (.wifiConnect c)
  | .wifiConnect _ .takeEventloop => s.stateMachine.esp32.nvsInitializedCount = 0 ∧
      s.stateMachine.modem = none ∧ s.stateMachine.eventloop.isSome
  | .wifiConnect _ _ =>
      s.stateMachine.esp32.nvsInitializedCount = 0 ∧ Taken s.stateMachine
  | .playback _ pc =>
      s.stateMachine.esp32.nvsInitializedCount = nvsCountAt pc ∧ Taken s.stateMachine
  | .finish next => Before (n + (s.lapEnds .run).toList.length) s.stateMachine next
  | .panicked => True

variable {s t : MainLoop} {a : MainAction} {n : ℕ}

theorem lapInv_unwrapTo {ε α : Type} {ret : Except ε α} {pc : MainPc}
    (h : LapInv n { s with pc }) : LapInv n (s.unwrapTo ret pc) := by
  rcases ret with e | v
  · trivial
  · exact h

theorem lapInv_execute (hpc : s.pc = .execute) (hs : LapInv n s) :
    LapInv n s.execute := by
  simp only [LapInv, hpc] at hs
  obtain ⟨st, hst, hbefore⟩ := hs
  rcases st with c | c | c
  all_goals
    simp only [execute, hst]
    exact hbefore

theorem lapInv_wifiStep {c : ConcreteState WifiConnect} {pc : WifiPc}
    (hpc : s.pc = .wifiConnect c pc) (hs : LapInv n s) (h : s.wifiStep c pc a = some t) :
    LapInv n t := by
  cases pc with
  | takeModem =>
    simp only [LapInv, hpc, Before] at hs
    obtain ⟨hcount, hfirst, hlater⟩ := hs
    cases a with
    | run =>
      simp only [wifiStep] at h
      split at h <;> cases h
      next hmodem =>
        refine ⟨hcount, rfl, (hfirst ?_).2⟩
        -- The modem is there, so no lap has been completed.
        by_contra hn
        rw [(hlater (Nat.pos_of_ne_zero hn)).1] at hmodem
        cases hmodem
      next => trivial
    | _ => cases h
  | takeEventloop =>
    simp only [LapInv, hpc] at hs
    obtain ⟨hcount, hmodem, -⟩ := hs
    cases a with
    | run =>
      simp only [wifiStep] at h
      split at h <;> cases h
      · exact ⟨hcount, hmodem, rfl⟩
      · trivial
    | _ => cases h
  | new | setConfiguration | start | connect =>
    simp only [LapInv, hpc] at hs
    cases a with
    | call ret =>
      cases h
      exact lapInv_unwrapTo hs
    | _ => cases h
  | isConnected =>
    simp only [LapInv, hpc] at hs
    cases a with
    | isConnected ret =>
      simp only [wifiStep] at h
      split at h <;> cases h
      · exact hs
      · exact hs
      · trivial
    | _ => cases h

theorem lapInv_playbackStep {c : ConcreteState Playback} {pc : PlaybackPc}
    (hpc : s.pc = .playback c pc) (hs : LapInv n s)
    (h : s.playbackStep true c pc a = some t) : LapInv n t := by
  simp only [LapInv, hpc] at hs
  obtain ⟨hcount, htaken⟩ := hs
  cases pc with
  | preInit =>
    -- The only `nvs_init` of the lap.
    cases a with
    | nvsInit calls =>
      cases h
      obtain ⟨-, e, hinit⟩ | hinit := s.stateMachine.esp32.nvsInit_cases calls
      · rw [hinit]
        trivial
      · rw [hinit, hcount]
        exact ⟨rfl, htaken⟩
    | _ => cases h
  | discover =>
    cases a with
    | discovered found =>
      rcases found with - | dev <;> cases h <;> exact ⟨hcount, htaken⟩
    | discoveryPanic =>
      cases h
      trivial
    | _ => cases h
  | name dev =>
    cases a with
    | run =>
      simp only [playbackStep] at h
      split at h <;> cases h
      · exact ⟨hcount, htaken⟩
      · trivial
    | _ => cases h
  | cancel dev =>
    cases a with
    | call ret =>
      cases h
      exact ⟨hcount, htaken⟩
    | _ => cases h
  | sdInit | init | startDiscovery | connect _ =>
    cases a with
    | call ret =>
      cases h
      exact lapInv_unwrapTo ⟨hcount, htaken⟩
    | _ => cases h
  | play =>
    cases a with
    | playbackTask ret =>
      cases h
      exact lapInv_unwrapTo ⟨hcount, htaken⟩
    | _ => cases h
  | deinit =>
    cases a with
    | run =>
      cases h
      exact lapInv_unwrapTo ⟨hcount, htaken⟩
    | _ => cases h
  | lockMachine =>
    cases a with
    | lock =>
      simp only [playbackStep] at h
      split at h <;> cases h
      exact ⟨hcount, htaken⟩
    | _ => cases h
  | postDeinit =>
    -- Its `nvs_deinit`, on a count of one.
    cases a with
    | call ret =>
      cases h
      have hone : s.stateMachine.esp32.nvsInitializedCount = 1 := hcount
      obtain ⟨hzero, -⟩ | ⟨-, hdeinit, -⟩ | ⟨-, code, -, hdeinit⟩ :=
        s.stateMachine.esp32.nvsDeinit_cases ret
      · exact absurd (hone.symm.trans hzero) (by decide)
      · rw [hdeinit, hone, UInt32.sub_self]
        exact ⟨rfl, fun hn ↦ absurd hn (Nat.succ_ne_zero _), fun _ ↦ htaken⟩
      · rw [hdeinit]
        trivial
    | _ => cases h

/-- The step lemma of the laps. -/
theorem lapInv_of_step (hs : LapInv n s) (h : s.step true a = some t) :
    LapInv (n + (s.lapEnds a).toList.length) t := by
  have hsame (hpc : ∀ c, s.pc ≠ .finish (.boot c)) :
      n + (s.lapEnds a).toList.length = n := by
    unfold lapEnds
    split
    next c hc => exact absurd hc (hpc c)
    next => rfl
  unfold step at h
  split at h
  next hpc =>
    rw [hsame (by simp [hpc])]
    simp only [LapInv, hpc] at hs
    obtain ⟨rfl, hcount, hthere⟩ := hs
    cases h
    exact ⟨_, rfl, hcount, fun _ ↦ hthere, fun hpos ↦ absurd hpos (Nat.lt_irrefl 0)⟩
  next hpc =>
    rw [hsame (by simp [hpc])]
    simp only [LapInv, hpc] at hs
    cases h
    exact hs
  next hpc =>
    rw [hsame (by simp [hpc])]
    cases h
    exact lapInv_execute hpc hs
  next c hpc =>
    rw [hsame (by simp [hpc])]
    simp only [LapInv, hpc] at hs
    cases h
    exact hs
  next c pc hpc =>
    rw [hsame (by simp [hpc])]
    exact lapInv_wifiStep hpc hs h
  next c pc hpc =>
    rw [hsame (by simp [hpc])]
    exact lapInv_playbackStep hpc hs h
  next next_ hpc =>
    simp only [LapInv, hpc] at hs
    cases h
    exact ⟨next_, rfl, hs⟩
  next => cases h

variable {arc : MachineArc} {as : List MainAction}

theorem lapInv_of_run (h : (machine true).run (start arc) as = some s) :
    LapInv (laps arc as) s := by
  have hstart : LapInv (laps arc []) (start arc) := ⟨rfl, rfl, rfl, rfl⟩
  refine (machine true).run_invariant (I := fun as s ↦ LapInv (laps arc as) s) hstart ?_ h
  intro as s a t hrun hs ht
  have hstep := lapInv_of_step hs ht
  rwa [laps, (machine true).outputs_concat lapEnds hrun, List.length_append]

/-! ### What a lap needs -/

theorem LapInv.not_panicked (hs : LapInv n s) (hwifi : ¬ WifiAgain n s)
    (hat : s.AtUnwrap) (ht : s.step true .run = some t) : t.pc ≠ .panicked := by
  obtain hpc | ⟨c, hpc⟩ | ⟨c, hpc⟩ := hat
  · simp only [LapInv, hpc] at hs
    obtain ⟨st, hst, -⟩ := hs
    simp only [step, hpc] at ht
    cases ht
    rcases st with c | c | c <;> simp [execute, hst]
  · simp only [LapInv, hpc, Before] at hs
    have hzero : n = 0 := Nat.eq_zero_of_not_pos fun hpos ↦ hwifi ⟨⟨c, hpc⟩, hpos⟩
    obtain ⟨m, hm⟩ := Option.isSome_iff_exists.1 (hs.2.1 hzero).1
    simp only [step, hpc, wifiStep, hm] at ht
    cases ht
    simp
  · simp only [LapInv, hpc] at hs
    obtain ⟨e, he⟩ := Option.isSome_iff_exists.1 hs.2.2
    simp only [step, hpc, wifiStep, he] at ht
    cases ht
    simp

theorem LapInv.ready_iff (hs : LapInv n s) : LapReady s ↔ ¬ WifiAgain n s := by
  constructor
  · rintro hready ⟨⟨c, hpc⟩, hpos⟩
    simp only [LapInv, hpc, Before] at hs
    have hmodem := (hready.wifi c hpc).1
    rw [(hs.2.2 hpos).1] at hmodem
    cases hmodem
  · intro hwifi
    refine ⟨fun hpc ↦ ?_, fun c hpc ↦ ?_, fun hat t ↦ hs.not_panicked hwifi hat,
      fun c hpc hst ↦ ?_⟩
    · simp only [LapInv, hpc] at hs
      obtain ⟨st, hst, -⟩ := hs
      rw [hst]
      rfl
    · simp only [LapInv, hpc, Before] at hs
      exact hs.2.1 (Nat.eq_zero_of_not_pos fun hpos ↦ hwifi ⟨⟨c, hpc⟩, hpos⟩)
    · simp only [LapInv, hpc] at hs
      obtain ⟨st, hst', hbefore⟩ := hs
      obtain rfl := Option.some.inj (hst.symm.trans hst')
      exact hbefore.1

/-- **What every lap finds.** In every state of every run: a state is stored when
`StateMachine::execute` takes it, the modem and the event loop are there when WifiConnect is
entered, no `unwrap` of the three panics, and the count of NVS is zero where a lap starts — if
and only if this is not WifiConnect after a completed lap. -/
theorem lapReady_iff (h : (machine true).run (start arc) as = some s) :
    LapReady s ↔ ¬ WifiAgain (laps arc as) s :=
  (lapInv_of_run h).ready_iff

/-- The first lap to its end, with a search that times out. -/
def wholeLap : List MainAction :=
  firstLap ++ [.discovered none, .run, .lock, .call (.ok ()), .run]

/-- At the start of the second lap everything is ready. -/
theorem lapReady_secondLap : ∃ s, (machine true).run (start 0) (wholeLap ++ [.lock]) = some s ∧
    s.pc = .execute ∧ laps 0 (wholeLap ++ [.lock]) = 1 ∧ LapReady s := by
  obtain ⟨s, hs, hpc⟩ : ∃ s, (machine true).run (start 0) (wholeLap ++ [.lock]) = some s ∧
    s.pc = .execute := ⟨_, rfl, rfl⟩
  refine ⟨s, hs, hpc, rfl, (lapReady_iff hs).2 ?_⟩
  rintro ⟨⟨c, hc⟩, -⟩
  rw [hpc] at hc
  cases hc

/-- WifiConnect of the second lap: every call has succeeded, the modem is gone, and
`modem.take().unwrap()` panics. -/
theorem not_lapReady_secondLap : ∃ s t,
    (machine true).run (start 0) (wholeLap ++ [.lock, .run, .run, .run, .lock, .run]) = some s ∧
      s.pc = .wifiConnect ⟨⟨⟩, 0⟩ .takeModem ∧ s.stateMachine.modem = none ∧ ¬ LapReady s ∧
      s.step true .run = some t ∧ t.pc = .panicked := by
  refine ⟨_, _, rfl, rfl, rfl, fun hready ↦ ?_, rfl, rfl⟩
  exact absurd (hready.wifi _ rfl).1 Bool.false_ne_true

end MainLoop

end Esp32A2dpPlayer
