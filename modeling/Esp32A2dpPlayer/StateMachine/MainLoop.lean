import Esp32A2dpPlayer.Bluetooth.GapHal
import Esp32A2dpPlayer.Concurrency.StepMachine
import Esp32A2dpPlayer.StateMachine.Esp32

/-!
# The main loop and its states

`main.rs` and `state_machine.rs` with the three states of the player. One task runs everything:
it locks the shared `StateMachine`, holds the guard while `StateMachine::execute` runs the
current state, stores the state that comes next and releases the guard.

Each state carries its own handle of the shared machine. A handle is the number of the `Arc` it
was cloned from, and the guards the task holds are the numbers of the mutexes it has locked, so
that what the task waits for can be compared with what it holds. `reentrant` says whether a task
may lock a mutex it holds already; the mutex of the source, `futures::lock::Mutex`, may not be.

What the drivers answer is part of the action. Where a state calls on code that touches neither
the lock nor the machine (the SD card, the Bluetooth stack, the search and the playback), the
action says how that call ends.
-/

namespace Esp32A2dpPlayer

/-- A handle `Arc<Mutex<StateMachine>>`: which allocation it points to. -/
abbrev MachineArc := ℕ

/-- `Boot`. -/
structure Boot

/-- `WifiConnect`. -/
structure WifiConnect

/-- `Playback`. -/
structure Playback

/-- `ConcreteState<S>`. -/
structure ConcreteState (S : Type) where
  state : S
  machine : MachineArc

/-- `StateEnum`. -/
inductive StateEnum where
  | boot (c : ConcreteState Boot)
  | wifiConnect (c : ConcreteState WifiConnect)
  | playback (c : ConcreteState Playback)

/-- The handle that a state carries. -/
def StateEnum.machine : StateEnum → MachineArc
  | .boot c => c.machine
  | .wifiConnect c => c.machine
  | .playback c => c.machine

/-- `From<ConcreteState<Boot>> for ConcreteState<WifiConnect>`. -/
def ConcreteState.wifiConnectFromBoot (val : ConcreteState Boot) : ConcreteState WifiConnect :=
  ⟨⟨⟩, val.machine⟩

/-- `From<ConcreteState<WifiConnect>> for ConcreteState<Playback>`. -/
def ConcreteState.playbackFromWifiConnect (value : ConcreteState WifiConnect) :
    ConcreteState Playback :=
  ⟨⟨⟩, value.machine⟩

/-- `From<ConcreteState<Playback>> for ConcreteState<Boot>`. -/
def ConcreteState.bootFromPlayback (value : ConcreteState Playback) : ConcreteState Boot :=
  ⟨⟨⟩, value.machine⟩

/-- `Modem`, which there is one of. -/
structure Modem

/-- `EspEventLoop<System>`, which there is one of. -/
structure EspEventLoop

/-- `EspNvsPartition<NvsDefault>`. -/
structure EspNvsPartition

/-- `StateMachine`, what is behind the mutex. -/
structure PlayerMachine where
  state : Option StateEnum
  modem : Option Modem
  eventloop : Option EspEventLoop
  nvsPartition : Option EspNvsPartition
  esp32 : Esp32

/-- `StateMachine::new`. -/
def PlayerMachine.new (esp32 : Esp32) : PlayerMachine where
  state := none
  modem := some ⟨⟩
  eventloop := some ⟨⟩
  nvsPartition := some ⟨⟩
  esp32 := esp32

/-- Where `ConcreteState<WifiConnect>::execute` stands: at which call. -/
inductive WifiPc where
  | takeModem
  | takeEventloop
  | new
  | setConfiguration
  | start
  | connect
  | isConnected

/-- Where `ConcreteState<Playback>::execute` stands: at which call. -/
inductive PlaybackPc where
  | sdInit
  | preInit
  | init
  | startDiscovery
  /-- In the discovery loop. -/
  | discover
  /-- `dev.name.unwrap()` of the device found. -/
  | name (dev : ScannedDevice)
  | cancel (dev : ScannedDevice)
  | connect (dev : ScannedDevice)
  | play
  | deinit
  /-- At `self.machine.lock().await`. -/
  | lockMachine
  /-- Holding the second guard, before `post_deinit`. -/
  | postDeinit

/-- Where the task stands. -/
inductive MainPc where
  /-- In `ConcreteState::<Boot>::new`, at `machine.lock().await`. -/
  | newLock
  /-- In `run_state_machine`, at `state_machine.lock().await`. -/
  | runLock
  /-- In `StateMachine::execute`, before `self.state.take()`. -/
  | execute
  | boot (c : ConcreteState Boot)
  | wifiConnect (c : ConcreteState WifiConnect) (pc : WifiPc)
  | playback (c : ConcreteState Playback) (pc : PlaybackPc)
  /-- A state has returned the one that comes next. -/
  | finish (next : StateEnum)
  | panicked

/-- The task and the machine it runs. -/
structure MainLoop where
  /-- The `Arc` that `main` holds. -/
  arc : MachineArc
  stateMachine : PlayerMachine
  /-- The mutexes the task holds a guard of. -/
  guards : List MachineArc
  pc : MainPc

/-- The steps of the task, with what the calls return. -/
inductive MainAction where
  /-- A `lock().await` gets its mutex. -/
  | lock
  /-- A step that calls on nothing outside. -/
  | run
  /-- A driver call whose failure the state unwraps. -/
  | call (ret : Except Int32 Unit)
  /-- `wifi_driver.is_connected()`. -/
  | isConnected (ret : Except Int32 Bool)
  /-- The driver calls of `esp32.nvs_init()`. -/
  | nvsInit (calls : NvsInitCalls)
  /-- The discovery loop ends. -/
  | discovered (found : Option ScannedDevice)
  /-- The discovery loop panics. -/
  | discoveryPanic
  /-- `audio::playback_task` returns. -/
  | playbackTask (ret : Except Int32 Unit)

namespace MainLoop

/-- `main`, before the first lock. -/
def start (arc : MachineArc) : MainLoop where
  arc := arc
  stateMachine := .new .new
  guards := []
  pc := .newLock

/-- Go to `pc`, or panic where the call unwrapped has failed. -/
def unwrapTo {ε α : Type} (s : MainLoop) (ret : Except ε α) (pc : MainPc) : MainLoop :=
  match ret with
  | .ok _ => { s with pc }
  | .error _ => { s with pc := .panicked }

/-- Whether a `lock().await` of the mutex gets it. -/
def canLock (reentrant : Bool) (s : MainLoop) (arc : MachineArc) : Bool :=
  reentrant || !s.guards.contains arc

/-- `StateMachine::execute` up to the call of the state's own `execute`. -/
def execute (s : MainLoop) : MainLoop :=
  let t := { s with stateMachine := { s.stateMachine with state := none } }
  match s.stateMachine.state with
  | some (.boot c) => { t with pc := .boot c }
  | some (.wifiConnect c) => { t with pc := .wifiConnect c .takeModem }
  | some (.playback c) => { t with pc := .playback c .sdInit }
  | none => { t with pc := .panicked }

/-- `ConcreteState<WifiConnect>::execute`. -/
def wifiStep (s : MainLoop) (c : ConcreteState WifiConnect) :
    WifiPc → MainAction → Option MainLoop
  | .takeModem, .run =>
    let t := { s with stateMachine := { s.stateMachine with modem := none } }
    match s.stateMachine.modem with
    | some _ => some { t with pc := .wifiConnect c .takeEventloop }
    | none => some { t with pc := .panicked }
  | .takeEventloop, .run =>
    let t := { s with stateMachine := { s.stateMachine with eventloop := none } }
    match s.stateMachine.eventloop with
    | some _ => some { t with pc := .wifiConnect c .new }
    | none => some { t with pc := .panicked }
  | .new, .call ret => some (s.unwrapTo ret (.wifiConnect c .setConfiguration))
  | .setConfiguration, .call ret => some (s.unwrapTo ret (.wifiConnect c .start))
  | .start, .call ret => some (s.unwrapTo ret (.wifiConnect c .connect))
  | .connect, .call ret => some (s.unwrapTo ret (.wifiConnect c .isConnected))
  | .isConnected, .isConnected ret =>
    match ret with
    | .ok true => some { s with pc := .finish (.playback (.playbackFromWifiConnect c)) }
    | .ok false => some { s with pc := .wifiConnect c .isConnected }
    | .error _ => some { s with pc := .panicked }
  | _, _ => none

/-- `ESP32Bluetooth::deinit`. -/
def bluetoothDeinit : Except Int32 Unit := .ok ()

/-- `ConcreteState<Playback>::execute`. -/
def playbackStep (reentrant : Bool) (s : MainLoop) (c : ConcreteState Playback) :
    PlaybackPc → MainAction → Option MainLoop
  | .sdInit, .call ret => some (s.unwrapTo ret (.playback c .preInit))
  | .preInit, .nvsInit calls =>
    let result := s.stateMachine.esp32.nvsInit calls
    let t := { s with stateMachine := { s.stateMachine with esp32 := result.2 } }
    some (t.unwrapTo result.1 (.playback c .init))
  | .init, .call ret => some (s.unwrapTo ret (.playback c .startDiscovery))
  | .startDiscovery, .call ret => some (s.unwrapTo ret (.playback c .discover))
  | .discover, .discovered (some dev) => some { s with pc := .playback c (.name dev) }
  | .discover, .discovered none => some { s with pc := .playback c .deinit }
  | .discover, .discoveryPanic => some { s with pc := .panicked }
  | .name dev, .run =>
    match dev.name with
    | some _ => some { s with pc := .playback c (.cancel dev) }
    | none => some { s with pc := .panicked }
  -- an error of `gap_cancel_discovery` is logged and ignored
  | .cancel dev, .call _ => some { s with pc := .playback c (.connect dev) }
  | .connect _, .call ret => some (s.unwrapTo ret (.playback c .play))
  | .play, .playbackTask ret => some (s.unwrapTo ret (.playback c .deinit))
  | .deinit, .run => some (s.unwrapTo bluetoothDeinit (.playback c .lockMachine))
  | .lockMachine, .lock =>
    if s.canLock reentrant c.machine then
      some { s with guards := c.machine :: s.guards, pc := .playback c .postDeinit }
    else none
  | .postDeinit, .call ret =>
    let result := s.stateMachine.esp32.nvsDeinit ret
    let t := { s with
      stateMachine := { s.stateMachine with esp32 := result.2 }
      guards := s.guards.erase c.machine }
    some (t.unwrapTo result.1 (.finish (.boot (.bootFromPlayback c))))
  | _, _ => none

/-- One step of the task. -/
def step (reentrant : Bool) (s : MainLoop) (a : MainAction) : Option MainLoop :=
  match s.pc, a with
  | .newLock, .lock =>
    if s.canLock reentrant s.arc then
      some { s with
        stateMachine := { s.stateMachine with state := some (.boot ⟨⟨⟩, s.arc⟩) }
        pc := .runLock }
    else none
  | .runLock, .lock =>
    if s.canLock reentrant s.arc then
      some { s with guards := s.arc :: s.guards, pc := .execute }
    else none
  | .execute, .run => some s.execute
  | .boot c, .run => some { s with pc := .finish (.wifiConnect (.wifiConnectFromBoot c)) }
  | .wifiConnect c pc, a => s.wifiStep c pc a
  | .playback c pc, a => s.playbackStep reentrant c pc a
  | .finish next, .run => some { s with
      stateMachine := { s.stateMachine with state := some next }
      guards := s.guards.erase s.arc
      pc := .runLock }
  | _, _ => none

/-- The main loop as a machine. -/
def machine (reentrant : Bool) : StepMachine MainLoop MainAction := ⟨step reentrant⟩

/-! ### What the states do -/

variable {s t : MainLoop} {a : MainAction} {reentrant : Bool}

@[simp] theorem unwrapTo_arc {ε α : Type} {ret : Except ε α} {pc : MainPc} :
    (s.unwrapTo ret pc).arc = s.arc := by
  cases ret <;> rfl

@[simp] theorem unwrapTo_stateMachine {ε α : Type} {ret : Except ε α} {pc : MainPc} :
    (s.unwrapTo ret pc).stateMachine = s.stateMachine := by
  cases ret <;> rfl

@[simp] theorem unwrapTo_guards {ε α : Type} {ret : Except ε α} {pc : MainPc} :
    (s.unwrapTo ret pc).guards = s.guards := by
  cases ret <;> rfl

theorem unwrapTo_pc {ε α : Type} (s : MainLoop) (ret : Except ε α) (pc : MainPc) :
    ((∃ e, ret = .error e) ∧ (s.unwrapTo ret pc).pc = .panicked) ∨
      (∃ v, ret = .ok v) ∧ (s.unwrapTo ret pc).pc = pc := by
  rcases ret with e | v
  · exact Or.inl ⟨⟨e, rfl⟩, rfl⟩
  · exact Or.inr ⟨⟨v, rfl⟩, rfl⟩

/-- What a step of a state leaves alone: the handle of `main` and the stored state. -/
def Keeps (s t : MainLoop) : Prop :=
  t.arc = s.arc ∧ t.stateMachine.state = s.stateMachine.state

theorem wifiStep_cases {c : ConcreteState WifiConnect} {pc : WifiPc}
    (h : s.wifiStep c pc a = some t) : Keeps s t ∧ t.guards = s.guards ∧
      (t.pc = .panicked ∨ (∃ pc', t.pc = .wifiConnect c pc') ∨
        t.pc = .finish (.playback (.playbackFromWifiConnect c))) := by
  have hcall : ∀ (ret : Except Int32 Unit) pc', t = s.unwrapTo ret (.wifiConnect c pc') →
      Keeps s t ∧ t.guards = s.guards ∧ (t.pc = .panicked ∨ (∃ pc', t.pc = .wifiConnect c pc') ∨
        t.pc = .finish (.playback (.playbackFromWifiConnect c))) := by
    rintro ret pc' rfl
    refine ⟨⟨by simp, by simp⟩, by simp, ?_⟩
    obtain ⟨-, hp⟩ | ⟨-, hp⟩ := s.unwrapTo_pc ret (.wifiConnect c pc')
    · exact Or.inl hp
    · exact Or.inr (Or.inl ⟨pc', hp⟩)
  cases pc with
  | takeModem | takeEventloop =>
    cases a with
    | run =>
      simp only [wifiStep] at h
      split at h <;> cases h <;> exact ⟨⟨rfl, rfl⟩, rfl, by simp⟩
    | _ => cases h
  | new | setConfiguration | start | connect =>
    cases a with
    | call ret => exact hcall ret _ (Option.some.inj h).symm
    | _ => cases h
  | isConnected =>
    cases a with
    | isConnected ret =>
      simp only [wifiStep] at h
      split at h <;> cases h <;> exact ⟨⟨rfl, rfl⟩, rfl, by simp⟩
    | _ => cases h

end MainLoop

end Esp32A2dpPlayer
