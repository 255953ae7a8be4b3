import Esp32A2dpPlayer.Bluetooth.AsyncCallSafety
import Esp32A2dpPlayer.System.Asks
import Esp32A2dpPlayer.System.Knowledge

/-!
# Where the parts panic

For each part of the program the steps that panic, as a predicate on the step, and what the part
rests on where it does not. The predicate (`Failed`, `Fails`) goes by what the drivers and the stack
answer and report. It looks at the state for one thing only: how far the search has got, or which
answer is awaited.

What a part rests on is an invariant of its own:

* `DiscoveryLoop.Watched` of the scan: the receiver in the slot stays there as long as the sender,
  so that a result finds the channel open and with a receiver, and only the third one finds it full;
* `A2dpConnect.Decided` of `connect`: a loop is left with a state that has been looked at;
* `AsyncCall.OnlyCaller` of `play`: one caller finds the answer to its check in the slot.

That these hold in the whole program, with `OneLap` of the main task, is the matter of `Aborts`.
-/

namespace Esp32A2dpPlayer

/-! ### The main task -/

/-- A driver call fails. -/
def MainAction.Failed : MainAction → Prop
  | .call ret => ∃ code, ret = .error code
  | .isConnected ret => ∃ code, ret = .error code
  | .nvsInit calls => ∃ e, (Esp32.new.nvsInit calls).1 = .error e
  | _ => False

namespace MainLoop

variable {s t : MainLoop} {a : MainAction}

/-- An `unwrap` panics at an error. -/
theorem panicked_unwrapTo_iff {ε α : Type} {ret : Except ε α} {pc : MainPc}
    (hpc : pc ≠ .panicked) : (s.unwrapTo ret pc).pc = .panicked ↔ ∃ e, ret = .error e := by
  cases ret with
  | ok _ => simp [unwrapTo, hpc]
  | error e => simp [unwrapTo]

/-- At `dev.name.unwrap()` of a device without a name. -/
def Unnamed (s : MainLoop) : Prop := ∃ c dev, s.pc = .playback c (.name dev) ∧ dev.name = none

/-- In WifiConnect a failed call panics, and neither `take` does: there is one lap, and the modem
and the event loop are there. -/
theorem panicked_iff_wifi {c : ConcreteState WifiConnect} {pc : WifiPc} (hs : s.OneLap)
    (hpc : s.pc = .wifiConnect c pc) (h : s.wifiStep c pc a = some t) :
    t.pc = .panicked ↔ a.Failed := by
  have hlap := hs.lap
  cases pc with
  | takeModem =>
    simp only [LapInv, hpc, Before] at hlap
    obtain ⟨m, hm⟩ := Option.isSome_iff_exists.1 (hlap.2.1 trivial).1
    cases a with
    | run =>
      simp only [wifiStep, hm] at h
      cases h
      simp [MainAction.Failed]
    | _ => cases h
  | takeEventloop =>
    simp only [LapInv, hpc] at hlap
    obtain ⟨e, he⟩ := Option.isSome_iff_exists.1 hlap.2.2
    cases a with
    | run =>
      simp only [wifiStep, he] at h
      cases h
      simp [MainAction.Failed]
    | _ => cases h
  | new | setConfiguration | start | connect =>
    cases a with
    | call ret =>
      cases h
      exact panicked_unwrapTo_iff (by simp)
    | _ => cases h
  | isConnected =>
    cases a with
    | isConnected ret =>
      simp only [wifiStep] at h
      split at h <;> cases h <;> simp [MainAction.Failed]
    | _ => cases h

/-- **Where the main task panics**, in none of the parts: a driver call has failed, or the device
has no name. -/
theorem panicked_iff (hs : s.OneLap) (hpart : s.pc.inPart = false) (h : s.step false a = some t) :
    t.pc = .panicked ↔ a.Failed ∨ s.Unnamed := by
  have hlap := hs.lap
  -- elsewhere no name is unwrapped
  have hnamed {c : ConcreteState Playback} {pc : PlaybackPc} (hpc : s.pc = .playback c pc)
      (hne : ∀ dev, pc ≠ .name dev) : ¬ s.Unnamed := by
    rintro ⟨c', dev, hpc', -⟩
    rw [hpc] at hpc'
    cases hpc'
    exact hne dev rfl
  rcases hpc : s.pc with - | - | - | c | ⟨c, pc⟩ | ⟨c, pc⟩ | next | -
  case newLock | runLock =>
    cases a with
    | lock =>
      simp only [step, hpc] at h
      split at h <;> cases h
      simp [MainAction.Failed, Unnamed, hpc]
    | _ => simp [step, hpc] at h
  case execute =>
    cases a with
    | run =>
      simp only [LapInv, hpc] at hlap
      obtain ⟨st, hst, -⟩ := hlap
      simp only [step, hpc] at h
      cases h
      cases st <;> simp [execute, hst, MainAction.Failed, Unnamed, hpc]
    | _ => simp [step, hpc] at h
  case boot | finish =>
    cases a with
    | run =>
      simp only [step, hpc] at h
      cases h
      simp [MainAction.Failed, Unnamed, hpc]
    | _ => simp [step, hpc] at h
  case wifiConnect =>
    simp only [step, hpc] at h
    rw [panicked_iff_wifi hs hpc h]
    simp [Unnamed, hpc]
  case playback =>
    simp only [step, hpc] at h
    rw [hpc] at hpart
    cases pc with
    | startDiscovery | discover | cancel _ | connect _ | play => cases hpart
    | sdInit | init =>
      rw [or_iff_left (hnamed hpc (by simp))]
      cases a with
      | call ret =>
        cases h
        exact panicked_unwrapTo_iff (by simp)
      | _ => cases h
    | preInit =>
      rw [or_iff_left (hnamed hpc (by simp))]
      cases a with
      | nvsInit calls =>
        simp only [LapInv, hpc] at hlap
        have hnew : s.stateMachine.esp32 = Esp32.new := by
          rw [Esp32.new, ← show _ = (0 : UInt32) from hlap.1]
        cases h
        rw [panicked_unwrapTo_iff (by simp), hnew]
        rfl
      | _ => cases h
    | name dev =>
      cases a with
      | run =>
        simp only [playbackStep] at h
        split at h <;> cases h
        next hname => simp [MainAction.Failed, Unnamed, hpc, hname]
        next hname => simp [MainAction.Failed, Unnamed, hpc, hname]
      | _ => cases h
    | deinit =>
      rw [or_iff_left (hnamed hpc (by simp))]
      obtain ⟨rfl, rfl⟩ := playbackStep_deinit h
      simp [MainAction.Failed]
    | lockMachine =>
      rw [or_iff_left (hnamed hpc (by simp))]
      obtain ⟨rfl, -, rfl⟩ := playbackStep_lockMachine h
      simp [MainAction.Failed]
    | postDeinit =>
      obtain ⟨ended, hlock⟩ := hs.lock
      exact absurd hpc (hlock.notPost c)
  case panicked => simp [step, hpc] at h

end MainLoop

/-! ### The search -/

/-- A discovery event ends the program. -/
def GapEvent.Fails (d : Discovery) : GapEvent → Prop
  | .discRes bda props => scannedDevice bda props = none ∨
      ∃ chan, d.discovery = some chan ∧ 2 ≤ (d.channels chan).sent.length
  | .discStateChanged (.other _) => True
  | .discStateChanged _ => False

namespace DiscoveryLoop

variable {s t : DiscoveryLoop} {e : GapEvent} {inTime : Prop}

/-- The channel of the scan as `gap_start_discovery` opens it, with its first receiver in the slot
as long as the scan is on. -/
structure Watched (s : DiscoveryLoop) : Prop where
  inv : ∃ inTime, Inv inTime s
  capacity : s.channel.capacity = 2
  first : s.discovery.discovery.isSome → s.channel.position 0 = some 0

/-- The scan as `gap_start_discovery` opens it. -/
theorem watched_start (d : Discovery) : Watched (start d 2) := by
  have hchan : (start d 2).channel = (BroadcastChannel.broadcast 2).cloneReceiver 0 :=
    Function.update_self d.nextChannel _ d.channels
  refine ⟨⟨_, inv_start⟩, ?_, fun _ ↦ ?_⟩
  · rw [hchan]
    rfl
  · rw [hchan]
    rfl

/-- While the scan is on, a result is broadcast, or it is the third one. -/
theorem Watched.tryBroadcast (hs : s.Watched) {chan : ℕ} (hslot : s.discovery.discovery = some chan)
    (dev : ScannedDevice) : (∃ c, (s.discovery.channels chan).tryBroadcast dev = .ok c) ↔
      (s.discovery.channels chan).sent.length < 2 := by
  obtain ⟨inTime, hinv⟩ := hs.inv
  obtain ⟨hopen, rfl⟩ := hinv.of_slot hslot
  have hfirst := hs.first (by rw [hslot]; rfl)
  have hactive : s.channel.positions.reduceOption ≠ [] :=
    List.ne_nil_of_mem (List.reduceOption_mem_iff.2 (BroadcastChannel.mem_positions hfirst))
  have hqueue : s.channel.queue.length < s.channel.capacity ↔ s.channel.sent.length < 2 := by
    rw [BroadcastChannel.queue_eq_sent hfirst, hs.capacity]
  show (∃ c, s.channel.tryBroadcast dev = .ok c) ↔ s.channel.sent.length < 2
  simp only [BroadcastChannel.tryBroadcast_eq_ok_iff, hopen, hactive, hqueue, ne_eq,
    not_false_eq_true, true_and, exists_and_left, exists_eq, and_true]

/-- **Where the callback panics**: at a property, at an unknown state, or at the third result. -/
theorem panic_of_btAppGapCb_iff (hscan : s.discovery.discovery = none ∨ s.Watched)
    (hpanic : s.discovery.panic = none) :
    (s.discovery.btAppGapCb e).panic ≠ none ↔ e.Fails s.discovery := by
  rcases e with ⟨bda, props⟩ | - | - | code
  · rcases hdev : scannedDevice bda props with - | dev
    · simp [Discovery.btAppGapCb, GapEvent.Fails, hdev]
    · rcases hslot : s.discovery.discovery with - | chan
      · simp [Discovery.btAppGapCb, Discovery.broadcastDevice, GapEvent.Fails, hdev, hslot, hpanic]
      · have hwatched : s.Watched := by
          rcases hscan with hnone | hwatched
          · rw [hslot] at hnone
            cases hnone
          · exact hwatched
        have hsent := hwatched.tryBroadcast hslot dev
        rcases hsend : (s.discovery.channels chan).tryBroadcast dev with err | c
        · have hfull : 2 ≤ (s.discovery.channels chan).sent.length := by
            by_contra hlt
            obtain ⟨c, hc⟩ := hsent.2 (not_le.1 hlt)
            rw [hsend] at hc
            cases hc
          simp [Discovery.btAppGapCb, Discovery.broadcastDevice, GapEvent.Fails, hdev, hslot, hsend,
            hfull]
        · have hlt := hsent.1 ⟨c, hsend⟩
          simp [Discovery.btAppGapCb, Discovery.broadcastDevice, GapEvent.Fails, hdev, hslot, hsend,
            hpanic, hlt]
  · rcases hslot : s.discovery.discovery with - | chan <;>
      simp [Discovery.btAppGapCb, GapEvent.Fails, hslot, hpanic]
  · simp [Discovery.btAppGapCb, GapEvent.Fails, hpanic]
  · simp [Discovery.btAppGapCb, GapEvent.Fails]

/-- A callback leaves the receiver in the slot, or empties the slot. -/
theorem Watched.gap (hs : s.Watched) (e : GapEvent) :
    Watched { s with discovery := s.discovery.btAppGapCb e } := by
  obtain ⟨inTime, hinv⟩ := hs.inv
  obtain ⟨⟨hslot, hchannels⟩, hstop⟩ | ⟨chan, dev, c, hslot, hsend, ⟨bda, props, rfl⟩, hcb⟩ |
    ⟨chan, hslot, rfl, hcb⟩ := s.discovery.btAppGapCb_cases e
  · have hchan : channel { s with discovery := s.discovery.btAppGapCb e } = s.channel :=
      congrFun hchannels _
    refine ⟨⟨_, inv_unchanged hinv hslot hchannels hstop⟩, ?_, fun hsome ↦ ?_⟩
    · rw [hchan]
      exact hs.capacity
    · rw [hchan]
      exact hs.first (hslot ▸ hsome)
  · obtain ⟨-, rfl⟩ := hinv.of_slot hslot
    have hchan : channel { s with discovery := s.discovery.btAppGapCb (.discRes bda props) } =
        c := by
      simp [channel, hcb]
    refine ⟨⟨inTime ∧ s.StopsInTime (.gap (.discRes bda props)),
      inv_broadcast hinv hslot hsend hcb⟩, ?_, fun _ ↦ ?_⟩
    · rw [hchan, (BroadcastChannel.sent_of_tryBroadcast hsend).2.2.2]
      exact hs.capacity
    · rw [hchan, BroadcastChannel.position_of_tryBroadcast hsend]
      exact hs.first (by rw [hslot]; rfl)
  · obtain ⟨-, rfl⟩ := hinv.of_slot hslot
    have hchan : channel { s with
        discovery := s.discovery.btAppGapCb (.discStateChanged .stopped) } =
          s.channel.close.dropReceiver 0 := by
      simp [channel, hcb]
    refine ⟨⟨_, inv_stopped hinv hslot hcb⟩, ?_, fun hsome ↦ ?_⟩
    · rw [hchan]
      exact hs.capacity
    · simp [hcb] at hsome

/-- The channel of the scan as a step of the loop leaves it. -/
theorem channel_of_loopStep (h : s.loopStep = some t) : t.channel = s.channel ∨
    ∃ res, s.channel.recv s.receiver.index = some (res, t.channel) := by
  have hrecv {res : Except RecvError ScannedDevice} {d : Discovery}
      (h : s.discovery.recv s.receiver = some (res, d)) :
      s.channel.recv s.receiver.index = some (res, d.channels s.receiver.channel) := by
    obtain ⟨⟨res', c⟩, hc, heq⟩ := Option.map_eq_some_iff.1 h
    obtain ⟨rfl, rfl⟩ := Prod.ext_iff.1 heq
    exact hc.trans (by simp)
  unfold loopStep at h
  split at h
  next => split at h <;> cases h <;> exact .inl rfl
  next =>
    split at h <;> cases h
    next hdev => exact .inr ⟨_, hrecv hdev⟩
    next herror => exact .inr ⟨_, hrecv herror⟩
  next =>
    split at h
    · cases h
      exact .inl rfl
    · split at h <;> cases h <;> exact .inl rfl
  next => split at h <;> cases h <;> exact .inl rfl
  · cases h
  · cases h

/-- The loop sets off no panic of the callback. -/
theorem panic_of_loopStep (h : s.loopStep = some t) : t.discovery.panic = s.discovery.panic := by
  rw [discovery_of_loopStep h]

/-- The loop has a receiver of its own. -/
theorem Watched.loop (hs : s.Watched) (h : s.loopStep = some t) : t.Watched := by
  obtain ⟨inTime, hinv⟩ := hs.inv
  have hslot := slot_of_loopStep h
  -- receiving moves the loop's own receiver, which is not the first
  have hchan : t.channel.capacity = s.channel.capacity ∧
      t.channel.position 0 = s.channel.position 0 := by
    obtain hsame | ⟨res, hrecv⟩ := channel_of_loopStep h
    · rw [hsame]
      exact ⟨rfl, rfl⟩
    · exact ⟨BroadcastChannel.capacity_of_recv hrecv,
        BroadcastChannel.position_of_recv hinv.index.symm hrecv⟩
  refine ⟨⟨inTime, inv_loop hinv h⟩, hchan.1.trans hs.capacity, fun hsome ↦ ?_⟩
  exact hchan.2.trans (hs.first (hslot ▸ hsome))

/-- **Where the loop panics**: where it prints a device. -/
theorem panicked_of_loopStep_iff (hs : s.Watched) (h : s.loopStep = some t) :
    (∃ p, t.pc = .panicked p) ↔ ∃ dev, s.pc = .device dev ∧ dev.debug = none := by
  obtain ⟨inTime, hinv⟩ := hs.inv
  have hok := hinv.loopOk
  unfold loopStep at h
  split at h
  next hpc =>
    split at h <;> cases h <;> simp [hpc]
  next hpc =>
    split at h <;> cases h <;> simp [hpc]
  next dev hpc =>
    split at h
    next hdebug =>
      cases h
      simp [hpc, hdebug]
    next hdebug =>
      split at h <;> cases h <;> simp [hpc, hdebug]
  -- `recv` fails at the end of a closed channel only, so that `is_closed` holds behind it
  next hpc =>
    simp only [LoopOk, hpc] at hok
    split at h <;> cases h
    · simp_all
    · simp [hpc]
  · cases h
  · cases h

end DiscoveryLoop

/-! ### The connection -/

/-- A connection event ends the program. -/
def ConnStat.Fails (connState : ConnStat) : Prop := ∃ code, connState.state = .other code

namespace A2dpConnect

variable {s t : A2dpConnect} {a : ConnectAction}

/-- What the two loops hand to the final `match` has been looked at. -/
def Decided (s : A2dpConnect) : Prop :=
  ∀ resultOpt, s.pc = .decide resultOpt → ∃ result, resultOpt = some result ∧ result.state.Terminal

/-- A new call of `connect` has nothing to decide yet. -/
theorem decided_new {state : ConnectionState} : Decided (new state) := nofun

/-- An event decides nothing by itself. -/
theorem Decided.evt {connState : ConnStat} (hs : s.Decided) (h : s.step (.evt connState) = some t) :
    t.Decided := by
  obtain ⟨-, ⟨state, -, rfl⟩ | ⟨-, rfl⟩⟩ := step_evt_cases h
  · exact hs
  · exact nofun

/-- The event callback panics at a state it does not know. -/
theorem panicked_of_evt_iff {connState : ConnStat} (h : s.step (.evt connState) = some t) :
    t.pc = .panicked ↔ connState.Fails := by
  obtain ⟨hpc, hcase⟩ := step_evt_cases h
  rcases hstate : connState.state with - | - | - | - | code <;>
    simp only [processConnectionStateEvt, hstate] at hcase
  all_goals
    obtain ⟨state, hsome, rfl⟩ | ⟨hnone, rfl⟩ := hcase
  all_goals
    simp_all [ConnStat.Fails]

/-- A step of `connect` itself does not panic. -/
theorem Decided.step (hs : s.Decided) (ha : ∀ connState, a ≠ .evt connState)
    (h : s.step a = some t) : t.Decided ∧ t.pc ≠ .panicked := by
  cases hpc : s.pc with
  | start =>
    obtain ⟨-, rfl⟩ := step_start ha h hpc
    exact ⟨nofun, nofun⟩
  | listened =>
    obtain ⟨-, rfl⟩ | ⟨code, -, rfl⟩ := step_listened ha h hpc
    · exact ⟨nofun, nofun⟩
    · exact ⟨nofun, nofun⟩
  | awaitConnecting =>
    obtain ⟨-, rfl⟩ := step_awaitConnecting ha h hpc
    exact ⟨nofun, nofun⟩
  | checkConnecting =>
    obtain ⟨-, rfl⟩ | ⟨-, rfl⟩ := step_checkConnecting ha h hpc
    · exact ⟨nofun, nofun⟩
    · exact ⟨nofun, nofun⟩
  | relisten =>
    obtain rfl := step_relisten ha h hpc
    exact ⟨nofun, nofun⟩
  | awaitTerminal =>
    obtain ⟨-, rfl⟩ := step_awaitTerminal ha h hpc
    exact ⟨nofun, nofun⟩
  | checkTerminal =>
    obtain ⟨hterminal, rfl⟩ | ⟨-, rfl⟩ := step_checkTerminal ha h hpc
    · refine ⟨fun resultOpt hdecide ↦ ?_, nofun⟩
      cases hdecide
      exact ⟨_, rfl, hterminal⟩
    · exact ⟨nofun, nofun⟩
  | decide resultOpt =>
    obtain ⟨result, rfl, hterminal⟩ := hs resultOpt hpc
    obtain rfl := step_decide ha h hpc
    obtain hresult | hresult := hterminal
    · simp [Decided, decideResult, hresult]
    · simp [Decided, decideResult, hresult]
  | returned result => exact absurd hpc (step_returned ha h)
  | panicked => cases a <;> simp_all [A2dpConnect.step]

end A2dpConnect

/-! ### Playing -/

/-- A step of playing ends the program. -/
def PlayAction.Fails (s : A2dpPlay) : PlayAction → Prop
  | .mediaCtrl (.error _) => ∃ n, s.play = .checkSrcRdy n
  | .event .audioCfg | .event .profState | .event (.other _)
  | .event (.mediaCtrlAck (.other _) _) => True
  | _ => False

namespace A2dpPlay

variable {s t : A2dpPlay} {a : PlayAction}

/-- The A2DP callback panics at the events that it has not been written for. -/
theorem panicked_of_event_iff {e : A2dEvent} (h : s.step (.event e) = some t) :
    t.panicked ↔ PlayAction.Fails s (.event e) := by
  have hpanic := panicked_of_step h
  replace h : s.btAppA2dCb e = some t := by simpa [step, hpanic] using h
  rw [btAppA2dCb.eq_def] at h
  split at h
  · cases h
  · cases h
    simp [PlayAction.Fails, hpanic]
  · obtain ⟨call, -, rfl⟩ := Option.map_eq_some_iff.1 h
    simp [PlayAction.Fails, hpanic]
  · cases h
    simp [PlayAction.Fails, hpanic]
  all_goals
    cases h
    simp [PlayAction.Fails]

/-- The first play is the only one who calls. -/
theorem onlyCaller_of_move (hs : s.srcReadyCall.OnlyCaller 0)
    (hfirst : ∀ n, s.play.stream? = some n → n = 0) (h : Move s a t) :
    t.srcReadyCall.OnlyCaller 0 := by
  cases h with
  | @listens n call h hcall =>
    obtain rfl := hfirst n (by rw [h]; rfl)
    exact hs.step (by simp) hcall
  | resumes h hcall | ready h hcall _ | notReady h hcall _ | takePanics h hcall _
  | checkReturns h hcall | acks h hcall | notifies h hcall =>
    exact hs.step (by simp) hcall
  | _ => exact hs

/-- **Where playing panics**, if one file is played: at a check that the stack refuses, and at the
events that the callback has not been written for. -/
theorem panicked_iff {files : List OggFile} (hs : s.srcReadyCall.OnlyCaller 0)
    (hdelivers : Delivers files s) (h : s.step a = some t) : t.panicked ↔ a.Fails s := by
  have hpanic := panicked_of_step h
  cases move_of_step h with
  | acks _ _ | ignores _ _ | eventPanics _ _ => exact panicked_of_event_iff h
  | takePanics hn hcall hv =>
    obtain ⟨v, hreturned⟩ := hs.returned_of_take hcall
    exact absurd hreturned (hv v)
  | readPanics hdata hread => exact absurd hread (hdelivers.reader_ne_panicked hdata)
  | checkRefused hn => simp [PlayAction.Fails, hn]
  | startRefused hn => simp [PlayAction.Fails, hn, playReturns, hpanic]
  | notReady hn _ _ | started hn => simp [PlayAction.Fails, playReturns, hpanic]
  | stream ha _ _ =>
    obtain ⟨rfl, -⟩ | ⟨p, rfl, -⟩ := ha
    · simp [PlayAction.Fails, hpanic]
    · simp [PlayAction.Fails, hpanic]
  | _ => simp [PlayAction.Fails, hpanic]

end A2dpPlay

/-! ### The GAP callback -/

/-- An event ends the program, where `esp_bt_gap_pin_reply` returns `ret` if it is called. -/
def GapCbEvent.Fails (d : Discovery) (ret : Except Int32 Unit) : GapCbEvent → Prop
  | .discovery e => e.Fails d
  | .rmtSrvcs | .rmtSrvcRec | .authCmpl => True
  | .pinReq _ _ => ∃ code, ret = .error code
  | _ => False

/-- **Where the callback panics**: where its discovery branches do, where it has not been written,
and at a refused PIN. -/
theorem GapCallback.panicked_iff {g g' : GapCallback} {e : GapCbEvent} {ret : Except Int32 Unit}
    (hdiscovery : ∀ e, (g.discovery.btAppGapCb e).panic ≠ none ↔ e.Fails g.discovery)
    (hpanic : g.discovery.panic = none) (hpanicked : g.panicked = false)
    (h : g.btAppGapCb e ret = some g') :
    g'.discovery.panic ≠ none ∨ g'.panicked = true ↔ e.Fails g.discovery ret := by
  rw [btAppGapCb.eq_def] at h
  cases hc : g.completing with
  | some k =>
    rw [hc] at h
    cases h
  | none =>
    rw [hc] at h
    cases e with
    | discovery e =>
      cases h
      simpa [GapCbEvent.Fails, hpanicked] using hdiscovery e
    | aclConnCmplStat stat handle =>
      obtain ⟨call, -, rfl⟩ := Option.map_eq_some_iff.1 h
      simp [GapCbEvent.Fails, hpanic, hpanicked]
    | pinReq bda min16Digit =>
      cases ret <;> cases h <;> simp [GapCbEvent.Fails, hpanic, hpanicked]
    | rmtSrvcs | rmtSrvcRec | authCmpl =>
      cases h
      simp [GapCbEvent.Fails]
    | modeChg mode | configEirData | other event =>
      cases h
      simp [GapCbEvent.Fails, hpanic, hpanicked]

/-- The `notify` of a completion does not panic. -/
theorem GapCallback.panicked_of_notify {g g' : GapCallback} (h : g.notify = some g') :
    g'.panicked = g.panicked := by
  unfold notify at h
  split at h
  · obtain ⟨call, -, rfl⟩ := Option.map_eq_some_iff.1 h
    rfl
  · cases h

end Esp32A2dpPlayer
