import Esp32A2dpPlayer.StateMachine.Laps

/-!
# The script of the program

What the program does to its drivers, call by call. Between two driver calls stand locks, a stored
state, and what is taken out of the machine. None of that can be seen from outside, and `script`
says what can: which call is made, and which one follows what it returns. On the side of the program
a call is named by the place the task stands at when it makes it (`MainLoop.driverCall`).

The two go together by what is still to come. `MainLoop.pending` is the next call from a place on,
which is the state of the script, and `MainLoop.rank` the steps up to the second lock of Playback.
A step makes the call that is pending, or none, and takes from the rank (`turn_of_step`), on the one
lap that there is (`OneLap`).
-/

namespace Esp32A2dpPlayer

/-! ### The script -/

/-- The calls of the states on what is outside the state machine. -/
inductive Driver where
  | wifiNew
  | setConfiguration
  | wifiStart
  | wifiConnect
  | isConnected
  | sdInit
  | nvsInit
  | bluetoothInit
  | startDiscovery
  /-- The discovery loop. -/
  | discover
  | cancelDiscovery
  | a2dpConnect
  | playbackTask
  /-- `esp32.nvs_deinit()`, in `post_deinit`. -/
  | nvsDeinit
  deriving DecidableEq

/-- The call that comes next where a result is unwrapped first. -/
def Driver.ifOk {ε : Type} (d : Driver) : Except ε Unit → Option Driver
  | .ok _ => some d
  | .error _ => none

/-- What a call may answer, and the call that comes next, if one does. The script never comes to
`nvs_deinit`. -/
def Driver.next : Driver → MainAction → Option (Option Driver)
  | .wifiNew, .call ret => some (Driver.setConfiguration.ifOk ret)
  | .setConfiguration, .call ret => some (Driver.wifiStart.ifOk ret)
  | .wifiStart, .call ret => some (Driver.wifiConnect.ifOk ret)
  | .wifiConnect, .call ret => some (Driver.isConnected.ifOk ret)
  | .isConnected, .isConnected (.ok false) => some (some .isConnected)
  | .isConnected, .isConnected (.ok true) => some (some .sdInit)
  | .isConnected, .isConnected (.error _) => some none
  | .sdInit, .call ret => some (Driver.nvsInit.ifOk ret)
  | .nvsInit, .nvsInit calls => some (Driver.bluetoothInit.ifOk (Esp32.new.nvsInit calls).1)
  | .bluetoothInit, .call ret => some (Driver.startDiscovery.ifOk ret)
  | .startDiscovery, .call ret => some (Driver.discover.ifOk ret)
  | .discover, .discovered (some dev) =>
    some (if dev.name.isSome then some .cancelDiscovery else none)
  | .discover, .discovered none => some none
  | .discover, .discoveryPanic => some none
  | .cancelDiscovery, .call _ => some (some .a2dpConnect)
  | .a2dpConnect, .call ret => some (Driver.playbackTask.ifOk ret)
  | .playbackTask, .playbackTask _ => some none
  | _, _ => none

/-- There is an answer to every call of the script. -/
theorem Driver.exists_answer {d : Driver} (hd : d ≠ .nvsDeinit) : ∃ a, (d.next a).isSome := by
  cases d with
  | nvsDeinit => exact absurd rfl hd
  | isConnected => exact ⟨.isConnected (.ok true), rfl⟩
  | nvsInit => exact ⟨.nvsInit ⟨.ok (), .ok (), .ok ()⟩, rfl⟩
  | discover => exact ⟨.discovered none, rfl⟩
  | playbackTask => exact ⟨.playbackTask (.ok ()), rfl⟩
  | _ => exact ⟨.call (.ok ()), rfl⟩

/-- A driver call, with its answer. -/
structure DriverCall where
  driver : Driver
  answer : MainAction

/-- The driver calls of the program, one after the other: the state is the call to come. -/
def script : StepMachine (Option Driver) DriverCall :=
  ⟨fun d call ↦ if d = some call.driver then call.driver.next call.answer else none⟩

/-- A step that is not the answer of a driver. -/
def MainAction.Silent : MainAction → Prop
  | .lock | .run => True
  | _ => False

/-- The cost of a step: `is_connected()` may return `false` any number of times. -/
def MainAction.pollCost : MainAction → ℕ
  | .isConnected (.ok false) => 1
  | _ => 0

/-! ### The calls of the program -/

/-- The call that WifiConnect stands at. -/
def WifiPc.call : WifiPc → Option Driver
  | .takeModem | .takeEventloop => none
  | .new => some .wifiNew
  | .setConfiguration => some .setConfiguration
  | .start => some .wifiStart
  | .connect => some .wifiConnect
  | .isConnected => some .isConnected

/-- The call that Playback stands at. -/
def PlaybackPc.call : PlaybackPc → Option Driver
  | .sdInit => some .sdInit
  | .preInit => some .nvsInit
  | .init => some .bluetoothInit
  | .startDiscovery => some .startDiscovery
  | .discover => some .discover
  | .cancel _ => some .cancelDiscovery
  | .connect _ => some .a2dpConnect
  | .play => some .playbackTask
  | .postDeinit => some .nvsDeinit
  | .name _ | .deinit | .lockMachine => none

/-- The driver call that the task stands at. -/
def MainPc.call : MainPc → Option Driver
  | .wifiConnect _ pc => pc.call
  | .playback _ pc => pc.call
  | .newLock | .runLock | .execute | .boot _ | .finish _ | .panicked => none

/-- The driver call that a step makes. -/
def MainLoop.driverCall (s : MainLoop) (a : MainAction) : Option DriverCall :=
  s.pc.call.map fun d ↦ ⟨d, a⟩

/-! ### What is still to come -/

/-- The next call of WifiConnect. -/
def WifiPc.driver : WifiPc → Driver
  | .takeModem | .takeEventloop | .new => .wifiNew
  | .setConfiguration => .setConfiguration
  | .start => .wifiStart
  | .connect => .wifiConnect
  | .isConnected => .isConnected

/-- The next call of Playback. -/
def PlaybackPc.driver : PlaybackPc → Option Driver
  | .sdInit => some .sdInit
  | .preInit => some .nvsInit
  | .init => some .bluetoothInit
  | .startDiscovery => some .startDiscovery
  | .discover => some .discover
  | .name dev => if dev.name.isSome then some .cancelDiscovery else none
  | .cancel _ => some .cancelDiscovery
  | .connect _ => some .a2dpConnect
  | .play => some .playbackTask
  | .deinit | .lockMachine | .postDeinit => none

/-- The first call from the start of a state on. -/
def StateEnum.driver : StateEnum → Driver
  | .boot _ | .wifiConnect _ => .wifiNew
  | .playback _ => .sdInit

/-- The steps WifiConnect has before it, polls aside. -/
def WifiPc.rank : WifiPc → ℕ
  | .takeModem => 6
  | .takeEventloop => 5
  | .new => 4
  | .setConfiguration => 3
  | .start => 2
  | .connect => 1
  | .isConnected => 0

/-- The steps Playback has before it, up to its second lock. -/
def PlaybackPc.rank : PlaybackPc → ℕ
  | .sdInit => 10
  | .preInit => 9
  | .init => 8
  | .startDiscovery => 7
  | .discover => 6
  | .name _ => 5
  | .cancel _ => 4
  | .connect _ => 3
  | .play => 2
  | .deinit => 1
  | .lockMachine | .postDeinit => 0

/-- The steps from the start of a state on. -/
def StateEnum.rank : StateEnum → ℕ
  | .boot _ => 24
  | .wifiConnect _ => 20
  | .playback _ => 10

namespace MainLoop

/-- The driver call that comes next. -/
def pending (s : MainLoop) : Option Driver :=
  match s.pc with
  | .newLock | .boot _ => some .wifiNew
  | .runLock | .execute => s.stateMachine.state.map StateEnum.driver
  | .wifiConnect _ pc => some pc.driver
  | .playback _ pc => pc.driver
  | .finish next => some next.driver
  | .panicked => none

/-- The steps of the lap that are left, polls aside. -/
def rank (s : MainLoop) : ℕ :=
  match s.pc with
  | .newLock => 27
  | .runLock => (s.stateMachine.state.map StateEnum.rank).getD 0 + 2
  | .execute => (s.stateMachine.state.map StateEnum.rank).getD 0 + 1
  | .boot _ => 24
  | .wifiConnect _ pc => pc.rank + 14
  | .playback _ pc => pc.rank
  | .finish next => next.rank + 3
  | .panicked => 0

/-- The invariant of the lap: the lock, what the states find, and that Boot is not returned. -/
structure OneLap (s : MainLoop) : Prop where
  lock : ∃ ended, LockInv ended s
  lap : LapInv 0 s
  onward : ∀ c, s.pc ≠ .finish (.boot c)

variable {s t : MainLoop} {a : MainAction}

/-- A mutex that may be locked again allows all that one that may not does. -/
theorem step_reentrant (h : s.step false a = some t) : s.step true a = some t := by
  have hlock {arc : MachineArc} {u : MainLoop}
      (h : (if s.canLock false arc then some u else none) = some t) :
      (if s.canLock true arc then some u else none) = some t := by
    split at h
    · exact h
    · cases h
  rcases hpc : s.pc with - | - | - | c | ⟨c, pc⟩ | ⟨c, pc⟩ | next | -
  case playback =>
    simp only [step, hpc] at h ⊢
    cases pc with
    | lockMachine =>
      cases a with
      | lock => exact hlock h
      | _ => cases h
    | discover =>
      cases a with
      | discovered found => cases found <;> exact h
      | _ => exact h
    | _ => cases a <;> exact h
  all_goals
    cases a
    all_goals
      simp only [step, hpc] at h ⊢
      first | exact h | exact hlock h

/-- No place has `nvs_deinit` ahead of it: only `post_deinit` itself calls it. -/
theorem pending_ne_nvsDeinit (s : MainLoop) : s.pending ≠ some .nvsDeinit := by
  rcases hpc : s.pc with - | - | - | c | ⟨c, pc⟩ | ⟨c, pc⟩ | next | -
  case runLock | execute =>
    rcases hst : s.stateMachine.state with - | (c | c | c) <;>
      simp [pending, hpc, hst, StateEnum.driver]
  case wifiConnect => cases pc <;> simp [pending, hpc, WifiPc.driver]
  case playback =>
    cases pc with
    | name dev =>
      simp only [pending, hpc, PlaybackPc.driver]
      split <;> simp
    | _ => simp [pending, hpc, PlaybackPc.driver]
  case finish => cases next <;> simp [pending, hpc, StateEnum.driver]
  all_goals simp [pending, hpc]

/-- At a driver call the only step is its answer. -/
theorem driverCall_eq_none (ha : a.Silent) (h : s.step false a = some t) :
    s.driverCall a = none := by
  rcases hpc : s.pc with - | - | - | c | ⟨c, pc⟩ | ⟨c, pc⟩ | next | -
  case wifiConnect =>
    simp only [driverCall, MainPc.call, hpc]
    simp only [step, hpc] at h
    cases pc with
    | takeModem | takeEventloop => rfl
    | _ => cases a <;> first | exact False.elim ha | cases h
  case playback =>
    simp only [driverCall, MainPc.call, hpc]
    simp only [step, hpc] at h
    cases pc with
    | name _ | deinit | lockMachine => rfl
    | _ => cases a <;> first | exact False.elim ha | cases h
  all_goals simp [driverCall, MainPc.call, hpc]

/-- Behind an `unwrap` there is the next call, or the end. -/
theorem pending_unwrapTo {ε : Type} {ret : Except ε Unit} {pc : MainPc} {d : Driver}
    (h : pending { s with pc } = some d) : (s.unwrapTo ret pc).pending = d.ifOk ret := by
  cases ret with
  | ok _ => exact h
  | error _ => rfl

/-- A panic has nothing left to do. -/
theorem rank_unwrapTo_le {ε α : Type} (ret : Except ε α) (pc : MainPc) :
    (s.unwrapTo ret pc).rank ≤ rank { s with pc } := by
  cases ret with
  | ok _ => exact Nat.le_refl _
  | error _ => exact Nat.zero_le _

/-- What a step of the lap does: it makes the call that comes next, or none, and gets on. -/
structure Turn (s : MainLoop) (a : MainAction) (t : MainLoop) : Prop where
  calls : script.run s.pending (s.driverCall a).toList = some t.pending
  rank : t.rank + 1 ≤ s.rank + a.pollCost
  onward : ∀ c, t.pc ≠ .finish (.boot c)

/-- A step that makes no call leaves the same one to come. -/
theorem calls_of_none (hcall : s.pc.call = none) (hpending : s.pending = t.pending) :
    script.run s.pending (s.driverCall a).toList = some t.pending := by
  rw [driverCall, hcall, hpending]
  rfl

/-- A step that makes the call to come goes on as the script does. -/
theorem calls_of_some {d : Driver} (hcall : s.pc.call = some d) (hpending : s.pending = some d)
    (hnext : d.next a = some t.pending) :
    script.run s.pending (s.driverCall a).toList = some t.pending := by
  rw [driverCall, hcall, hpending]
  simp [script, hnext]

/-- In WifiConnect the call to come goes by the place. -/
theorem pending_wifi {c : ConcreteState WifiConnect} {pc : WifiPc}
    (hpc : s.pc = .wifiConnect c pc) : s.pending = some pc.driver := by
  rw [pending, hpc]

/-- In Playback the call to come goes by the place as well. -/
theorem pending_playback {c : ConcreteState Playback} {pc : PlaybackPc}
    (hpc : s.pc = .playback c pc) : s.pending = pc.driver := by
  rw [pending, hpc]

/-- A step that costs no poll. -/
theorem Turn.of_lt (hcalls : script.run s.pending (s.driverCall a).toList = some t.pending)
    (hrank : t.rank < s.rank) (honward : ∀ c, t.pc ≠ .finish (.boot c)) : Turn s a t :=
  ⟨hcalls, by omega, honward⟩

/-- The step lemma of WifiConnect: each place has its call, and the polls are the one loop. -/
theorem turn_wifiStep {c : ConcreteState WifiConnect} {pc : WifiPc}
    (hs : OneLap s) (hpc : s.pc = .wifiConnect c pc) (h : s.wifiStep c pc a = some t) :
    Turn s a t := by
  have hlap := hs.lap
  have hcall (d : Option Driver) (hd : pc.call = d) : s.pc.call = d := by rw [hpc, ← hd]; rfl
  have hpending := pending_wifi hpc
  -- a call whose result is unwrapped
  have hunwrap {ret : Except Int32 Unit} {pc' : WifiPc} (hd : pc.call = some pc.driver)
      (hrank : pc'.rank + 1 = pc.rank)
      (hnext : pc.driver.next (.call ret) = some (pc'.driver.ifOk ret))
      (ht : t = s.unwrapTo ret (.wifiConnect c pc')) : Turn s (.call ret) t := by
    subst ht
    have hr := s.rank_unwrapTo_le ret (.wifiConnect c pc')
    refine .of_lt (calls_of_some (hcall _ hd) hpending ?_) ?_ ?_
    · rw [hnext, pending_unwrapTo (d := pc'.driver) rfl]
    · simp only [rank, hpc] at hr ⊢
      omega
    · cases ret <;> simp [unwrapTo]
  cases pc with
  | takeModem =>
    simp only [LapInv, hpc, Before] at hlap
    obtain ⟨m, hm⟩ := Option.isSome_iff_exists.1 (hlap.2.1 trivial).1
    cases a with
    | run =>
      simp only [wifiStep, hm] at h
      cases h
      exact .of_lt (calls_of_none (hcall _ rfl) hpending) (by simp [rank, hpc, WifiPc.rank])
        (by simp)
    | _ => cases h
  | takeEventloop =>
    simp only [LapInv, hpc] at hlap
    obtain ⟨e, he⟩ := Option.isSome_iff_exists.1 hlap.2.2
    cases a with
    | run =>
      simp only [wifiStep, he] at h
      cases h
      exact .of_lt (calls_of_none (hcall _ rfl) hpending) (by simp [rank, hpc, WifiPc.rank])
        (by simp)
    | _ => cases h
  | new | setConfiguration | start | connect =>
    cases a with
    | call ret => exact hunwrap rfl rfl rfl (Option.some.inj h).symm
    | _ => cases h
  | isConnected =>
    cases a with
    | isConnected ret =>
      simp only [wifiStep] at h
      -- a poll that is answered `false` is the one step that does not get on
      split at h <;> cases h
      all_goals
        exact ⟨calls_of_some (hcall _ rfl) hpending rfl,
          by simp [rank, hpc, WifiPc.rank, StateEnum.rank, MainAction.pollCost], by simp⟩
    | _ => cases h

/-- The step lemma of Playback, down to its second lock. -/
theorem turn_playbackStep {c : ConcreteState Playback} {pc : PlaybackPc} (hs : OneLap s)
    (hpc : s.pc = .playback c pc) (h : s.playbackStep false c pc a = some t) : Turn s a t := by
  obtain ⟨ended, hlock⟩ := hs.lock
  have hcall (d : Option Driver) (hd : pc.call = d) : s.pc.call = d := by rw [hpc, ← hd]; rfl
  have hpending := pending_playback hpc
  -- a call whose result is unwrapped, after what it has done to the machine
  have hunwrap {ε : Type} {u : MainLoop} {ret : Except ε Unit} {pc' : PlaybackPc} {d d' : Driver}
      (hrank : pc'.rank + 1 = pc.rank) (hd : pc.call = some d) (hd' : pc.driver = some d)
      (hdriver : pc'.driver = some d') (hnext : d.next a = some (d'.ifOk ret))
      (ht : t = u.unwrapTo ret (.playback c pc')) : Turn s a t := by
    subst ht
    have hr := u.rank_unwrapTo_le ret (.playback c pc')
    refine .of_lt (calls_of_some (hcall _ hd) (hpending.trans hd') ?_) ?_ ?_
    · rw [hnext, show (u.unwrapTo ret (.playback c pc')).pending = d'.ifOk ret from
        pending_unwrapTo hdriver]
    · simp only [rank, hpc] at hr ⊢
      omega
    · cases ret <;> simp [unwrapTo]
  cases pc with
  | preInit =>
    cases a with
    | nvsInit calls =>
      have hlap := hs.lap
      simp only [LapInv, hpc] at hlap
      -- there is one lap, so NVS has not been initialised before
      have hnew : s.stateMachine.esp32 = Esp32.new := by
        rw [Esp32.new, ← show _ = (0 : UInt32) from hlap.1]
      refine hunwrap rfl rfl rfl rfl ?_ (Option.some.inj h).symm
      rw [hnew]
      rfl
    | _ => cases h
  | sdInit | init | startDiscovery | connect _ =>
    cases a with
    | call ret => exact hunwrap rfl rfl rfl rfl rfl (Option.some.inj h).symm
    | _ => cases h
  | discover =>
    cases a with
    | discovered found =>
      rcases found with - | dev <;> cases h
      all_goals
        exact .of_lt (calls_of_some (hcall _ rfl) hpending rfl)
          (by simp [rank, hpc, PlaybackPc.rank]) (by simp)
    | discoveryPanic =>
      cases h
      exact .of_lt (calls_of_some (hcall _ rfl) hpending rfl) (by simp [rank, hpc, PlaybackPc.rank])
        (by simp)
    | _ => cases h
  | name dev =>
    cases a with
    | run =>
      simp only [playbackStep] at h
      split at h <;> cases h
      next hname =>
        refine .of_lt (calls_of_none (hcall _ rfl) (hpending.trans ?_))
          (by simp [rank, hpc, PlaybackPc.rank]) (by simp)
        simp [pending, PlaybackPc.driver, hname]
      next hname =>
        refine .of_lt (calls_of_none (hcall _ rfl) (hpending.trans ?_))
          (by simp [rank, hpc, PlaybackPc.rank]) (by simp)
        simp [pending, PlaybackPc.driver, hname]
    | _ => cases h
  | cancel dev =>
    cases a with
    | call ret =>
      cases h
      exact .of_lt (calls_of_some (hcall _ rfl) hpending rfl) (by simp [rank, hpc, PlaybackPc.rank])
        (by simp)
    | _ => cases h
  | play =>
    cases a with
    | playbackTask ret =>
      cases h
      have hr := s.rank_unwrapTo_le ret (.playback c .deinit)
      refine .of_lt (calls_of_some (hcall _ rfl) hpending ?_) ?_ ?_
      · cases ret <;> rfl
      · simp only [rank, hpc, PlaybackPc.rank] at hr ⊢
        omega
      · cases ret <;> simp [unwrapTo]
    | _ => cases h
  | deinit =>
    obtain ⟨rfl, rfl⟩ := playbackStep_deinit h
    exact .of_lt (calls_of_none (hcall _ rfl) hpending) (by simp [rank, hpc, PlaybackPc.rank])
      (by simp)
  | lockMachine =>
    -- the task holds the guard it asks for
    obtain ⟨-, hcan, -⟩ := playbackStep_lockMachine h
    have hc : c.machine = s.arc := hlock.handles.current _ (by rw [hpc]; rfl)
    simp [canLock, hlock.guards, hpc, MainPc.outside, hc] at hcan
  | postDeinit => exact absurd hpc (hlock.notPost c)

/-- The step lemma of the lap. -/
theorem turn_of_step (hs : OneLap s) (h : s.step false a = some t) : Turn s a t := by
  have hlap := hs.lap
  have hnone {pc : MainPc} (hpc : s.pc = pc) (hd : pc.call = none) : s.pc.call = none := by
    rw [hpc, hd]
  unfold step at h
  split at h
  next hpc =>
    split at h <;> cases h
    exact .of_lt (calls_of_none (hnone hpc rfl) (by simp [pending, hpc, StateEnum.driver]))
      (by simp [rank, hpc, StateEnum.rank]) (by simp)
  next hpc =>
    split at h <;> cases h
    exact .of_lt (calls_of_none (hnone hpc rfl) (by simp [pending, hpc])) (by simp [rank, hpc])
      (by simp)
  next hpc =>
    simp only [LapInv, hpc] at hlap
    obtain ⟨st, hst, -⟩ := hlap
    cases h
    rcases st with c | c | c
    all_goals
      simp only [execute, hst]
      exact .of_lt (calls_of_none (hnone hpc rfl) (by simp [pending, hpc, hst, StateEnum.driver,
          WifiPc.driver, PlaybackPc.driver]))
        (by simp [rank, hpc, hst, StateEnum.rank, WifiPc.rank, PlaybackPc.rank]) (by simp)
  next c hpc =>
    cases h
    exact .of_lt (calls_of_none (hnone hpc rfl) (by simp [pending, hpc, StateEnum.driver]))
      (by simp [rank, hpc, StateEnum.rank]) (by simp)
  next c pc hpc => exact turn_wifiStep hs hpc h
  next c pc hpc => exact turn_playbackStep hs hpc h
  next next hpc =>
    cases h
    exact .of_lt (calls_of_none (hnone hpc rfl) (by simp [pending, hpc])) (by simp [rank, hpc])
      (by simp)
  next => cases h

/-- The lap begins at the first lock. -/
theorem oneLap_start (arc : MachineArc) : OneLap (start arc) :=
  ⟨⟨_, lockInv_of_run (show (machine false).run (start arc) [] = some _ from rfl)⟩,
    ⟨rfl, rfl, rfl, rfl⟩, by simp [start]⟩

/-- A step stays on the lap, since none of them returns Boot. -/
theorem oneLap_of_step (hs : OneLap s) (h : s.step false a = some t) : OneLap t := by
  obtain ⟨ended, hlock⟩ := hs.lock
  have hends : s.lapEnds a = none := by
    unfold lapEnds
    split
    next c hpc => exact absurd hpc (hs.onward c)
    next => rfl
  have hlap := lapInv_of_step hs.lap (step_reentrant h)
  rw [hends] at hlap
  exact ⟨⟨_, lockInv_of_step hlock h⟩, hlap, (turn_of_step hs h).onward⟩

end MainLoop

end Esp32A2dpPlayer
