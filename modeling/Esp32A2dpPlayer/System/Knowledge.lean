import Esp32A2dpPlayer.Bluetooth.A2dpConnect
import Esp32A2dpPlayer.Bluetooth.A2dpPlay
import Esp32A2dpPlayer.Playback.DiscoveryLoop

/-!
# Where the parts have their knowledge from

The callbacks of the stack write the statics that the main task reads later, so what a part goes by
has come from the stack some time before. For each part this is said by a predicate that is a
parameter: `Informed` holds where nothing that the part has in its hands is without it.

* In the search it is a property of devices. Each device in the channels, the one that the loop
  looks at, and the one that it has found satisfy it (`DiscoveryLoop.Informed`).
* In `connect` it is the call of `esp_a2d_source_connect`, and the CONNECTED that follows it
  (`A2dpConnect.Informed`).
* In `play` it is the acknowledgement of a check (`A2dpPlay.Informed`).

The steps of a part keep `Informed`, and a callback keeps it if what the callback brings satisfies
the predicate. Nothing is said here of the other parts, nor of where the main task stands. A
predicate that speaks of a run can grow with the run, by `Informed.mono`.
-/

namespace Esp32A2dpPlayer

/-! ### Where the search has its devices from -/

namespace Discovery

variable {d : Discovery} {P : ScannedDevice → Prop}

/-- Every device in the channels satisfies `P`. -/
def Reported (P : ScannedDevice → Prop) (d : Discovery) : Prop :=
  ∀ k, ∀ dev ∈ (d.channels k).sent, P dev

/-- A channel may be replaced by one that holds nothing else. -/
theorem Reported.update (hd : Reported P d) {d' : Discovery} {k : ℕ}
    {c : BroadcastChannel ScannedDevice} (hc : ∀ dev ∈ c.sent, P dev)
    (hd' : d'.channels = Function.update d.channels k c) : Reported P d' := by
  intro j dev hdev
  rw [hd'] at hdev
  rcases eq_or_ne j k with rfl | hne
  · rw [Function.update_self] at hdev
    exact hc dev hdev
  · rw [Function.update_of_ne hne] at hdev
    exact hd j dev hdev

/-- The callback puts a device in a channel only while a scan is open. -/
theorem Reported.broadcastDevice {dev : ScannedDevice} (hd : Reported P d)
    (hdev : d.discovery.isSome → P dev) : Reported P (d.broadcastDevice dev) := by
  rw [Discovery.broadcastDevice]
  split
  · exact hd
  next chan hslot =>
    split
    next c hsend =>
      refine hd.update (k := chan) (fun dev' hmem ↦ ?_) rfl
      rw [(BroadcastChannel.sent_of_tryBroadcast hsend).1] at hmem
      rcases List.mem_append.1 hmem with hmem | hmem
      · exact hd chan dev' hmem
      · obtain rfl := List.mem_singleton.1 hmem
        exact hdev (by rw [hslot]; rfl)
    · exact hd

/-- The GAP callback reports the devices of its results, and no others. -/
theorem Reported.btAppGapCb {e : GapEvent} (hd : Reported P d)
    (he : ∀ bda props dev, e = .discRes bda props → scannedDevice bda props = some dev →
      d.discovery.isSome → P dev) :
    Reported P (d.btAppGapCb e) := by
  unfold Discovery.btAppGapCb
  split
  next bda props =>
    split
    · exact hd
    next dev hdev => exact hd.broadcastDevice (he bda props dev rfl hdev)
  next =>
    split
    · exact hd
    next chan _ =>
      exact hd.update (c := (d.channels chan).close.dropReceiver 0) (hd chan) rfl
  · exact hd
  · exact hd

/-- A callback opens no scan. -/
theorem isSome_of_btAppGapCb {e : GapEvent} (h : (d.btAppGapCb e).discovery.isSome) :
    d.discovery.isSome := by
  obtain ⟨⟨hslot, -⟩, -⟩ | ⟨chan, dev, c, hslot, -⟩ | ⟨chan, hslot, -, -⟩ := d.btAppGapCb_cases e
  · rwa [hslot] at h
  · rw [hslot]
    rfl
  · rw [hslot]
    rfl

/-- A scan begins with an empty channel. -/
theorem Reported.gapStartDiscovery {ret : Except Int32 Unit} {r : DiscoveryReceiver}
    {d' : Discovery} (hd : Reported P d) (h : d.gapStartDiscovery ret = (.ok r, d')) :
    Reported P d' := by
  obtain ⟨-, -, hopen⟩ := gapStartDiscovery_eq_ok_iff.1 h
  obtain ⟨-, rfl⟩ := Prod.ext_iff.1 hopen
  exact hd.update (k := d.nextChannel) (fun dev hdev ↦ (by cases hdev)) rfl

/-- What is received has been reported. -/
theorem Reported.recv {r : DiscoveryReceiver} {res : Except RecvError ScannedDevice}
    {d' : Discovery} (hd : Reported P d) (h : d.recv r = some (res, d')) :
    Reported P d' ∧ ∀ dev, res = .ok dev → P dev := by
  obtain ⟨⟨res', c⟩, hrecv, heq⟩ := Option.map_eq_some_iff.1 h
  obtain ⟨rfl, rfl⟩ := Prod.ext_iff.1 heq
  obtain ⟨p, -, ⟨m, rfl, hm, hsent, -⟩ | ⟨rfl, -, -, rfl⟩⟩ := BroadcastChannel.recv_cases hrecv
  · have hall : ∀ dev ∈ c.sent, P dev := hsent ▸ hd r.channel
    refine ⟨hd.update hall rfl, fun dev hdev ↦ ?_⟩
    cases hdev
    exact hd r.channel m (List.mem_of_getElem? hm)
  · exact ⟨hd.update (hd r.channel) rfl, nofun⟩

end Discovery

namespace DiscoveryLoop

variable {s t : DiscoveryLoop} {P : ScannedDevice → Prop}

/-- Every device that the loop has to do with satisfies `P`, and what it has found is suitable. -/
structure Informed (P : ScannedDevice → Prop) (s : DiscoveryLoop) : Prop where
  reported : s.discovery.Reported P
  device : ∀ dev, s.pc = .device dev → P dev
  found : ∀ dev, s.found = some dev → P dev ∧ suitable dev

/-- The loop has its devices from the channel, and has found one that it has looked at. -/
theorem Informed.loopStep (hs : Informed P s) (h : s.loopStep = some t) : Informed P t := by
  obtain ⟨hreported, hdevice, hfound⟩ := hs
  unfold DiscoveryLoop.loopStep at h
  split at h
  next =>
    split at h <;> cases h <;> exact ⟨hreported, nofun, hfound⟩
  next =>
    split at h <;> cases h
    next dev d hrecv =>
      obtain ⟨hd, hdev⟩ := hreported.recv hrecv
      refine ⟨hd, fun dev' hpc ↦ ?_, hfound⟩
      cases hpc
      exact hdev dev rfl
    next d hrecv => exact ⟨(hreported.recv hrecv).1, nofun, hfound⟩
  next dev hpc =>
    split at h
    · cases h
      exact ⟨hreported, nofun, hfound⟩
    split at h <;> cases h
    next hsuitable =>
      refine ⟨hreported, nofun, fun dev' hdev ↦ ?_⟩
      cases hdev
      exact ⟨hdevice dev hpc, hsuitable⟩
    next => exact ⟨hreported, nofun, hfound⟩
  next =>
    split at h <;> cases h <;> exact ⟨hreported, nofun, hfound⟩
  · cases h
  · cases h

/-- The loop changes nothing but the channels. -/
theorem discovery_of_loopStep (h : s.loopStep = some t) :
    t.discovery = { s.discovery with channels := t.discovery.channels } := by
  have hrecv {r : DiscoveryReceiver} {res : Except RecvError ScannedDevice} {d : Discovery}
      (h : s.discovery.recv r = some (res, d)) :
      d = { s.discovery with channels := d.channels } := by
    obtain ⟨⟨res', c⟩, -, heq⟩ := Option.map_eq_some_iff.1 h
    obtain ⟨-, rfl⟩ := Prod.ext_iff.1 heq
    rfl
  unfold DiscoveryLoop.loopStep at h
  split at h
  next => split at h <;> cases h <;> rfl
  next =>
    split at h <;> cases h
    next hdev => exact hrecv hdev
    next herror => exact hrecv herror
  next =>
    split at h
    · cases h
      rfl
    · split at h <;> cases h <;> rfl
  next => split at h <;> cases h <;> rfl
  · cases h
  · cases h

/-- The loop neither opens a scan nor ends one. -/
theorem slot_of_loopStep (h : s.loopStep = some t) :
    t.discovery.discovery = s.discovery.discovery := by
  rw [discovery_of_loopStep h]

/-- What is known stays known where more is. -/
theorem Informed.mono {Q : ScannedDevice → Prop} (hs : Informed P s) (h : ∀ dev, P dev → Q dev) :
    Informed Q s :=
  ⟨fun k dev hdev ↦ h dev (hs.reported k dev hdev), fun dev hdev ↦ h dev (hs.device dev hdev),
    fun dev hdev ↦ ⟨h dev (hs.found dev hdev).1, (hs.found dev hdev).2⟩⟩

end DiscoveryLoop

/-! ### Where `connect` has its result from -/

/-- In one of the two loops of `connect`. -/
def ConnectPc.waits : ConnectPc → Bool
  | .awaitConnecting | .checkConnecting | .relisten | .awaitTerminal | .checkTerminal => true
  | _ => false

/-- In the second loop of `connect`. -/
def ConnectPc.connecting : ConnectPc → Bool
  | .relisten | .awaitTerminal | .checkTerminal => true
  | _ => false

namespace A2dpConnect

variable {s t : A2dpConnect} {a : ConnectAction} {P Q : Prop}

/-- `connect` does not wait unless `P`, and does not know of a connection unless `Q`. What
`CONNECTION_STATE` holds counts in the second loop only: CONNECTING has been there before. -/
structure Informed (P Q : Prop) (s : A2dpConnect) : Prop where
  waits : s.pc.waits → P
  state : s.pc.connecting → s.connectionState.state = .connected → Q
  decide : ∀ result, s.pc = .decide (some result) → result.state = .connected → Q
  returned : ∀ v, s.pc = .returned (.ok v) → Q

/-- A new call of `connect` knows nothing yet. -/
theorem informed_new {state : ConnectionState} : Informed P Q (new state) :=
  ⟨nofun, nofun, nofun, nofun⟩

/-- A connection event is what `connect` may learn of a connection from. -/
theorem Informed.evt {connState : ConnStat} (hs : Informed P Q s)
    (hQ : P → connState.state = .connected → Q) (h : s.step (.evt connState) = some t) :
    Informed P Q t := by
  obtain ⟨-, ⟨state, hstate, rfl⟩ | ⟨-, rfl⟩⟩ := step_evt_cases h
  · refine ⟨hs.waits, fun hpc hconnected ↦ hQ (hs.waits ?_) ?_, hs.decide, hs.returned⟩
    · cases hpc' : s.pc <;> simp_all [ConnectPc.connecting, ConnectPc.waits]
    · unfold processConnectionStateEvt at hstate
      split at hstate <;> cases hstate <;> exact hconnected
  · exact ⟨nofun, nofun, nofun, nofun⟩

/-- `connect` waits after its call only, and returns what it has seen in `CONNECTION_STATE`. -/
theorem Informed.step (hs : Informed P Q s) (hP : ∀ ret, a = .sourceConnect ret → P)
    (ha : ∀ connState, a ≠ .evt connState) (h : s.step a = some t) : Informed P Q t := by
  have hwaits := hs.waits
  have hstate := hs.state
  cases hpc : s.pc with
  | start =>
    obtain ⟨-, rfl⟩ := step_start ha h hpc
    exact ⟨nofun, nofun, nofun, nofun⟩
  | listened =>
    obtain ⟨rfl, rfl⟩ | ⟨code, -, rfl⟩ := step_listened ha h hpc
    · exact ⟨fun _ ↦ hP _ rfl, nofun, nofun, nofun⟩
    · exact ⟨nofun, nofun, nofun, nofun⟩
  | awaitConnecting =>
    rw [hpc] at hwaits
    obtain ⟨-, rfl⟩ := step_awaitConnecting ha h hpc
    exact ⟨fun _ ↦ hwaits rfl, nofun, nofun, nofun⟩
  | checkConnecting =>
    rw [hpc] at hwaits
    obtain ⟨hconnecting, rfl⟩ | ⟨-, rfl⟩ := step_checkConnecting ha h hpc
    -- on its way to the second loop the state is CONNECTING
    · exact ⟨fun _ ↦ hwaits rfl, fun _ hconnected ↦ (by cases hconnecting.symm.trans hconnected),
        nofun, nofun⟩
    · exact ⟨fun _ ↦ hwaits rfl, nofun, nofun, nofun⟩
  | relisten =>
    rw [hpc] at hwaits hstate
    obtain rfl := step_relisten ha h hpc
    exact ⟨fun _ ↦ hwaits rfl, fun _ ↦ hstate rfl, nofun, nofun⟩
  | awaitTerminal =>
    rw [hpc] at hwaits hstate
    obtain ⟨-, rfl⟩ := step_awaitTerminal ha h hpc
    exact ⟨fun _ ↦ hwaits rfl, fun _ ↦ hstate rfl, nofun, nofun⟩
  | checkTerminal =>
    rw [hpc] at hwaits hstate
    obtain ⟨-, rfl⟩ | ⟨-, rfl⟩ := step_checkTerminal ha h hpc
    · refine ⟨nofun, nofun, fun result hresult ↦ ?_, nofun⟩
      cases hresult
      exact hstate rfl
    · exact ⟨fun _ ↦ hwaits rfl, fun _ ↦ hstate rfl, nofun, nofun⟩
  | decide resultOpt =>
    obtain rfl := step_decide ha h hpc
    cases resultOpt with
    | none => exact ⟨nofun, nofun, nofun, nofun⟩
    | some result =>
      have hQ := hs.decide result hpc
      cases hresult : result.state with
      | connected =>
        exact ⟨by simp [decideResult, hresult, ConnectPc.waits],
          by simp [decideResult, hresult, ConnectPc.connecting], fun _ _ _ ↦ hQ hresult,
          fun _ _ ↦ hQ hresult⟩
      | _ =>
        constructor <;>
          simp [decideResult, hresult, ConnectPc.waits, ConnectPc.connecting]
  | returned result => exact absurd hpc (step_returned ha h)
  | panicked => cases a <;> simp_all [A2dpConnect.step]

theorem Informed.mono {P' Q' : Prop} (hs : Informed P Q s) (hP : P → P') (hQ : Q → Q') :
    Informed P' Q' s :=
  ⟨fun h ↦ hP (hs.waits h), fun h h' ↦ hQ (hs.state h h'), fun r h h' ↦ hQ (hs.decide r h h'),
    fun v h ↦ hQ (hs.returned v h)⟩

end A2dpConnect

/-! ### Where `play` has its answer from -/

namespace A2dpPlay

variable {s t : A2dpPlay} {a : PlayAction} {P : Prop}

/-- `play` does not know of an answer unless `P`. -/
structure Informed (P : Prop) (s : A2dpPlay) : Prop where
  slot : ∀ v, s.srcReadyCall.result = some (.ok v) → P
  start : ∀ n, s.play = .start n → P

/-- `play` goes on to its start with what it has taken out of the slot, and only an acknowledgement
puts a success there. -/
theorem Informed.move (hs : Informed P s)
    (hP : a = .event (.mediaCtrlAck .checkSrcRdy .success) → P) (h : Move s a t) :
    Informed P t := by
  obtain ⟨hslot, hstart⟩ := hs
  cases h with
  | playbackTask _ | locks _ _ | sets _ | checks _ _ | started _ | startRefused _ =>
    exact ⟨hslot, nofun⟩
  | listens h hcall =>
    obtain ⟨-, rfl⟩ := AsyncCall.step_listen_iff.1 hcall
    exact ⟨hslot, hstart⟩
  | resumes h hcall =>
    obtain ⟨-, rfl⟩ := AsyncCall.step_resume_iff.1 hcall
    exact ⟨hslot, hstart⟩
  | @ready n call v h hcall hv =>
    obtain ⟨-, ⟨w, hw, rfl⟩ | ⟨-, rfl⟩⟩ := AsyncCall.step_take_iff.1 hcall
    · simp only [Function.update_self, CallerPc.returned.injEq] at hv
      subst hv
      exact ⟨nofun, fun _ _ ↦ hslot v hw⟩
    · simp at hv
  | notReady h hcall _ =>
    obtain ⟨-, ⟨w, hw, rfl⟩ | ⟨-, rfl⟩⟩ := AsyncCall.step_take_iff.1 hcall
    · exact ⟨nofun, nofun⟩
    · exact ⟨hslot, nofun⟩
  | takePanics h hcall _ =>
    obtain ⟨-, ⟨w, hw, rfl⟩ | ⟨-, rfl⟩⟩ := AsyncCall.step_take_iff.1 hcall
    · exact ⟨nofun, hstart⟩
    · exact ⟨hslot, hstart⟩
  | checkReturns h hcall =>
    obtain ⟨-, rfl⟩ := AsyncCall.step_runF_iff.1 hcall
    exact ⟨hslot, nofun⟩
  | @acks status call h hcall =>
    obtain ⟨-, rfl⟩ := AsyncCall.step_replace_iff.1 hcall
    refine ⟨fun v hv ↦ ?_, hstart⟩
    cases status with
    | success => exact hP rfl
    | other status => cases hv
  | notifies h hcall =>
    obtain ⟨v, -, rfl⟩ := AsyncCall.step_notify_iff.1 hcall
    exact ⟨hslot, hstart⟩
  | _ => exact ⟨hslot, hstart⟩

theorem Informed.mono {Q : Prop} (hs : Informed P s) (h : P → Q) : Informed Q s :=
  ⟨fun v hv ↦ h (hs.slot v hv), fun n hn ↦ h (hs.start n hn)⟩

end A2dpPlay

end Esp32A2dpPlayer
