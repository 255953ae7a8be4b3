import Esp32A2dpPlayer.Bluetooth.A2dpConnect
import Esp32A2dpPlayer.Bluetooth.GapCallback
import Esp32A2dpPlayer.Bluetooth.PlayedBytes
import Esp32A2dpPlayer.Playback.DiscoveryLoop
import Esp32A2dpPlayer.StateMachine.CallOrder

/-!
# The whole player

The program with all of its parts. The main task runs the state machine, and in Playback the
discovery loop, `a2dp_connect` and `playback_task`. Against it run the GAP callback, the A2DP
callback, the data callback and the decoding threads. Each part is the machine that it is
elsewhere. What is added here is how they hang together: the main task is in one call at a time,
the call of a part begins where `execute` makes it, what it returns is what `execute` goes on with,
and a panic of any part ends them all.

Nothing is assumed of the stack. Its callbacks come at any time and with any event, those before
their registration included.

The program begins behind `StateMachine::new`, with the peripherals, the event loop and the NVS
partition in the machine. The `take().unwrap()` of each of the three comes before that, in `main`,
and is not modelled.
-/

namespace Esp32A2dpPlayer

/-- In a call of one of the parts. -/
def MainPc.inPart : MainPc → Bool
  | .playback _ .startDiscovery | .playback _ .discover | .playback _ (.cancel _)
  | .playback _ (.connect _) | .playback _ .play => true
  | _ => false

/-- The program. -/
structure Player where
  main : MainLoop
  gap : GapCallback
  /-- What `gap_start_discovery` has returned to the discovery loop. -/
  receiver : DiscoveryReceiver
  found : Option ScannedDevice
  loop : LoopPc
  connect : A2dpConnect
  play : A2dpPlay
  /-- `playback_task` has been called and has not returned. -/
  playing : Bool

/-- The steps of the program. -/
inductive PlayerAction where
  /-- A step of the main task in none of the parts. -/
  | main (a : MainAction)
  /-- `gap_start_discovery`, where `esp_bt_gap_start_discovery` returns `ret` if called. -/
  | startDiscovery (ret : Except Int32 Unit)
  /-- A step of the discovery loop. -/
  | loop
  /-- `gap_cancel_discovery`, where `esp_bt_gap_cancel_discovery` returns `ret` if called. -/
  | cancel (ret : Except Int32 Unit)
  /-- A step of `a2dp_connect`, or a connection event. -/
  | connect (a : ConnectAction)
  /-- A step of `playback_task`, of the A2DP callbacks or of a decoding thread. -/
  | play (a : PlayAction)
  /-- The discovery loop, `a2dp_connect` or `playback_task` returns to `execute`. -/
  | returns
  /-- `bt_app_gap_cb`, with what `esp_bt_gap_pin_reply` returns if it is called. -/
  | gap (e : GapCbEvent) (ret : Except Int32 Unit)
  /-- The `notify` of `ESP32_BLUETOOTH_GLOBALS.connection.complete`. -/
  | gapNotify

/-- What `execute` sees of a result: no more of an error than that it is one. -/
def seenByExecute {ε : Type} : Except ε Unit → Except Int32 Unit
  | .ok _ => .ok ()
  | .error _ => .error (-1)

namespace Player

/-- `main`, before the first lock. -/
def start (arc : MachineArc) : Player where
  main := .start arc
  gap := .new
  receiver := ⟨0, 0⟩
  found := none
  loop := .ended
  connect := .new ⟨.disconnected, 0⟩
  play := .new
  playing := false

variable (s : Player)

/-- The discovery loop with the scan it waits for. -/
def search : DiscoveryLoop := ⟨s.gap.discovery, s.receiver, s.found, s.loop⟩

/-- The loop has moved, and with it the scan. -/
def setSearch (l : DiscoveryLoop) : Player :=
  { s with
    gap := { s.gap with discovery := l.discovery }
    receiver := l.receiver
    found := l.found
    loop := l.pc }

/-- No part has panicked. -/
def alive : Bool :=
  (match s.main.pc with | .panicked => false | _ => true) &&
    s.gap.discovery.panic.isNone && !s.gap.panicked &&
    (match s.loop with | .panicked _ => false | _ => true) &&
    (match s.connect.pc with | .panicked => false | _ => true) && !s.play.panicked

/-- The main task takes a step of its own machine. -/
def mainStep (a : MainAction) : Option Player :=
  (s.main.step false a).map fun main ↦ { s with main }

/-- A part returns to `execute`. -/
def returns : Option Player :=
  match s.main.pc with
  | .playback _ .discover =>
    match s.loop with
    | .ended => s.mainStep (.discovered s.found)
    | _ => none
  | .playback _ (.connect _) =>
    match s.connect.pc with
    | .returned result => s.mainStep (.call (seenByExecute result))
    | _ => none
  | .playback _ .play =>
    match s.playing, s.play.play, s.play.results.getLast? with
    | true, .idle, some result =>
      ({ s with playing := false } : Player).mainStep (.playbackTask (seenByExecute result))
    | _, _, _ => none
  | _ => none

/-- One step of a program that has not panicked. -/
def turn : PlayerAction → Option Player
  | .main a => if s.main.pc.inPart then none else s.mainStep a
  | .startDiscovery ret =>
    match s.main.pc with
    | .playback _ .startDiscovery =>
      match s.gap.discovery.gapStartDiscovery ret with
      | (.ok receiver, discovery) =>
        (s.setSearch ⟨discovery, receiver, none, .test⟩).mainStep (.call (.ok ()))
      | (.error e, _) => s.mainStep (.call (seenByExecute (.error e)))
    | _ => none
  | .loop =>
    match s.main.pc with
    | .playback _ .discover => (s.search.step .loop).map s.setSearch
    | _ => none
  | .cancel ret =>
    match s.main.pc with
    -- `a2dp_connect` comes next, with what `CONNECTION_STATE` holds
    | .playback _ (.cancel _) =>
      ({ s with connect := .new s.connect.connectionState } : Player).mainStep
        (.call (seenByExecute (s.gap.discovery.gapCancelDiscovery ret)))
    | _ => none
  | .connect (.evt connState) =>
    (s.connect.step (.evt connState)).map fun connect ↦ { s with connect }
  | .connect a =>
    match s.main.pc with
    | .playback _ (.connect _) => (s.connect.step a).map fun connect ↦ { s with connect }
    | _ => none
  | .play (.playbackTask file spawn) =>
    match s.main.pc, s.playing with
    | .playback _ .play, false =>
      (s.play.step (.playbackTask file spawn)).map fun play ↦ { s with play, playing := true }
    | _, _ => none
  | .play a => (s.play.step a).map fun play ↦ { s with play }
  | .returns => s.returns
  | .gap e ret => (s.gap.btAppGapCb e ret).map fun gap ↦ { s with gap }
  | .gapNotify => s.gap.notify.map fun gap ↦ { s with gap }

/-- One step; a panic is the end of the program. -/
def step (a : PlayerAction) : Option Player := if s.alive then s.turn a else none

/-- The program as a machine. -/
def machine : StepMachine Player PlayerAction := ⟨step⟩

end Player

/-! ### What the stack is told -/

/-- The five commands that the main task has for the stack. What a callback answers by itself, with
`esp_bt_gap_pin_reply`, is not among them. -/
inductive StackCommand where
  /-- `esp_bt_gap_start_discovery`. -/
  | startDiscovery
  /-- `esp_bt_gap_cancel_discovery`. -/
  | cancelDiscovery
  /-- `esp_a2d_source_connect`. -/
  | sourceConnect (addr : BDAddr)
  /-- `esp_a2d_media_ctrl(CHECK_SRC_RDY)`. -/
  | checkSrcRdy
  /-- `esp_a2d_media_ctrl(START)`. -/
  | mediaStart
  deriving DecidableEq

/-- The call of the stack that a step of `connect` makes. -/
def ConnectAction.command (addr : BDAddr) : ConnectAction → Option StackCommand
  | .sourceConnect _ => some (.sourceConnect addr)
  | _ => none

/-- The call of the stack that a step of `play` makes. -/
def A2dpPlay.command (s : A2dpPlay) : PlayAction → Option StackCommand
  | .play =>
    match s.play with
    | .doAndWait n =>
      match s.srcReadyCall.caller n with
      | .listening => some .checkSrcRdy
      | _ => none
    | _ => none
  | .mediaCtrl _ =>
    match s.play with
    | .start _ => some .mediaStart
    | _ => none
  | _ => none

namespace Player

/-- The call of the stack that a step makes. -/
def command (s : Player) : PlayerAction → Option StackCommand
  | .startDiscovery _ => if s.gap.discovery.discovery.isNone then some .startDiscovery else none
  | .cancel _ => if s.gap.discovery.discovery.isSome then some .cancelDiscovery else none
  | .connect a =>
    match s.main.pc with
    | .playback _ (.connect dev) => a.command dev.address
    | _ => none
  | .play a => s.play.command a
  | _ => none

/-- The calls of the stack along a run. -/
def commands (arc : MachineArc) (as : List PlayerAction) : List StackCommand :=
  machine.outputs command (start arc) as

end Player

namespace Player

variable {s t : Player} {a : PlayerAction}

/-! ### What a step does -/

/-- The moves of the program. -/
inductive Move (s : Player) : PlayerAction → Player → Prop
  | main {a main} (hpc : s.main.pc.inPart = false) (h : s.main.step false a = some main) :
      Move s (.main a) { s with main }
  | starts {c receiver discovery ret} (hpc : s.main.pc = .playback c .startDiscovery)
      (h : s.gap.discovery.gapStartDiscovery ret = (.ok receiver, discovery)) :
      Move s (.startDiscovery ret) { s.setSearch ⟨discovery, receiver, none, .test⟩ with
        main := { s.main with pc := .playback c .discover } }
  | startFails {c ret e discovery} (hpc : s.main.pc = .playback c .startDiscovery)
      (h : s.gap.discovery.gapStartDiscovery ret = (.error e, discovery)) :
      Move s (.startDiscovery ret) { s with main := { s.main with pc := .panicked } }
  | loop {c l} (hpc : s.main.pc = .playback c .discover) (h : s.search.loopStep = some l) :
      Move s .loop (s.setSearch l)
  | found {c dev} (hpc : s.main.pc = .playback c .discover) (h : s.found = some dev) :
      Move s .returns { s with main := { s.main with pc := .playback c (.name dev) } }
  | foundNone {c} (hpc : s.main.pc = .playback c .discover) :
      Move s .returns { s with main := { s.main with pc := .playback c .deinit } }
  | cancels {c dev ret} (hpc : s.main.pc = .playback c (.cancel dev)) :
      Move s (.cancel ret) { s with
        main := { s.main with pc := .playback c (.connect dev) }
        connect := .new s.connect.connectionState }
  | connectEvt {e connect} (h : s.connect.step (.evt e) = some connect) :
      Move s (.connect (.evt e)) { s with connect }
  | connect {c dev a connect} (hpc : s.main.pc = .playback c (.connect dev))
      (ha : ∀ e, a ≠ .evt e) (h : s.connect.step a = some connect) :
      Move s (.connect a) { s with connect }
  | connected {c dev v} (hpc : s.main.pc = .playback c (.connect dev))
      (h : s.connect.pc = .returned (.ok v)) :
      Move s .returns { s with main := { s.main with pc := .playback c .play } }
  | connectFails {c dev e} (hpc : s.main.pc = .playback c (.connect dev))
      (h : s.connect.pc = .returned (.error e)) :
      Move s .returns { s with main := { s.main with pc := .panicked } }
  | playbackTask {c file spawn play} (hpc : s.main.pc = .playback c .play)
      (hplaying : s.playing = false) (h : s.play.step (.playbackTask file spawn) = some play) :
      Move s (.play (.playbackTask file spawn)) { s with play, playing := true }
  | play {a play} (ha : ∀ file spawn, a ≠ .playbackTask file spawn)
      (h : s.play.step a = some play) : Move s (.play a) { s with play }
  | played {c v} (hpc : s.main.pc = .playback c .play) (hidle : s.play.play = .idle)
      (h : s.play.results.getLast? = some (.ok v)) :
      Move s .returns { s with
        main := { s.main with pc := .playback c .deinit }
        playing := false }
  | playFails {c e} (hpc : s.main.pc = .playback c .play) (hidle : s.play.play = .idle)
      (h : s.play.results.getLast? = some (.error e)) :
      Move s .returns { s with main := { s.main with pc := .panicked }, playing := false }
  | gap {e ret gap} (h : s.gap.btAppGapCb e ret = some gap) : Move s (.gap e ret) { s with gap }
  | gapNotify {gap} (h : s.gap.notify = some gap) : Move s .gapNotify { s with gap }

/-- A part returns what `execute` goes on with. -/
theorem move_of_returns (h : s.returns = some t) : Move s .returns t := by
  rw [returns] at h
  split at h
  next c hpc =>
    split at h
    · cases hfound : s.found with
      | none =>
        rw [hfound] at h
        simp only [mainStep, MainLoop.step, hpc, MainLoop.playbackStep, Option.map_some] at h
        cases h
        exact .foundNone hpc
      | some dev =>
        rw [hfound] at h
        simp only [mainStep, MainLoop.step, hpc, MainLoop.playbackStep, Option.map_some] at h
        cases h
        exact .found hpc hfound
    · cases h
  next c dev hpc =>
    split at h
    next result hreturned =>
      simp only [mainStep, MainLoop.step, hpc, MainLoop.playbackStep, Option.map_some] at h
      cases h
      cases result with
      | ok v => exact .connected hpc hreturned
      | error e => exact .connectFails hpc hreturned
    · cases h
  next c hpc =>
    split at h
    next result hplaying hidle hlast =>
      simp only [mainStep, MainLoop.step, hpc, MainLoop.playbackStep, Option.map_some] at h
      cases h
      cases result with
      | ok v => exact .played hpc hidle hlast
      | error e => exact .playFails hpc hidle hlast
    · cases h
  · cases h

/-- The search starts, or `execute` unwraps the error. -/
theorem move_of_startDiscovery {ret : Except Int32 Unit}
    (h : s.turn (.startDiscovery ret) = some t) : Move s (.startDiscovery ret) t := by
  simp only [turn] at h
  split at h
  next c hpc =>
    split at h
    next receiver discovery hstart =>
      simp only [mainStep, setSearch, MainLoop.step, hpc, MainLoop.playbackStep,
        Option.map_some] at h
      cases h
      exact .starts hpc hstart
    next e discovery hstart =>
      simp only [mainStep, MainLoop.step, hpc, MainLoop.playbackStep, Option.map_some] at h
      cases h
      exact .startFails hpc hstart
  · cases h

/-- An event comes at any time, a step of `connect` in its call only. -/
theorem move_of_connect {e : ConnectAction} (h : s.turn (.connect e) = some t) :
    Move s (.connect e) t := by
  by_cases he : ∃ connState, e = .evt connState
  · obtain ⟨connState, rfl⟩ := he
    obtain ⟨connect, hconnect, rfl⟩ := Option.map_eq_some_iff.1 h
    exact .connectEvt hconnect
  · have hne (connState : ConnStat) : e ≠ .evt connState := fun heq ↦ he ⟨connState, heq⟩
    have h' : (match s.main.pc with
        | .playback _ (.connect _) => (s.connect.step e).map fun connect ↦ { s with connect }
        | _ => none) = some t := by
      cases e with
      | evt connState => exact absurd rfl (hne connState)
      | _ => exact h
    split at h'
    next c dev hpc =>
      obtain ⟨connect, hconnect, rfl⟩ := Option.map_eq_some_iff.1 h'
      exact .connect hpc hne hconnect
    · cases h'

/-- `playback_task` is called where `execute` stands at it, and the rest comes at any time. -/
theorem move_of_play {e : PlayAction} (h : s.turn (.play e) = some t) : Move s (.play e) t := by
  cases e with
  | playbackTask file spawn =>
    simp only [turn] at h
    split at h
    next c hpc hplaying =>
      obtain ⟨play, hplay, rfl⟩ := Option.map_eq_some_iff.1 h
      exact .playbackTask hpc hplaying hplay
    · cases h
  | _ =>
    obtain ⟨play, hplay, rfl⟩ := Option.map_eq_some_iff.1 h
    exact .play nofun hplay

/-- **Every step is a move.** -/
theorem move_of_step (h : s.step a = some t) : Move s a t := by
  rw [step] at h
  split at h
  swap
  · cases h
  cases a with
  | main a =>
    simp only [turn] at h
    split at h
    · cases h
    next hpc =>
      obtain ⟨main, hmain, rfl⟩ := Option.map_eq_some_iff.1 h
      exact .main (by simpa using hpc) hmain
  | startDiscovery ret => exact move_of_startDiscovery h
  | loop =>
    simp only [turn] at h
    split at h
    next c hpc =>
      obtain ⟨l, hl, rfl⟩ := Option.map_eq_some_iff.1 h
      exact .loop hpc (DiscoveryLoop.step_loop_cases hl)
    · cases h
  | cancel ret =>
    simp only [turn] at h
    split at h
    next c dev hpc =>
      simp only [mainStep, MainLoop.step, hpc, MainLoop.playbackStep, Option.map_some] at h
      cases h
      exact .cancels hpc
    · cases h
  | connect e => exact move_of_connect h
  | play e => exact move_of_play h
  | returns => exact move_of_returns h
  | gap e ret =>
    obtain ⟨gap, hgap, rfl⟩ := Option.map_eq_some_iff.1 h
    exact .gap hgap
  | gapNotify =>
    obtain ⟨gap, hgap, rfl⟩ := Option.map_eq_some_iff.1 h
    exact .gapNotify hgap

end Player

end Esp32A2dpPlayer
