import Esp32A2dpPlayer.Bluetooth.ClassOfDevice
import Esp32A2dpPlayer.Concurrency.BroadcastChannel
import Esp32A2dpPlayer.Concurrency.StepMachine
import Mathlib.Data.List.Infix

/-!
# Discovery

One scan, from `gap_start_discovery` and `gap_cancel_discovery` of `bluetooth_esp32.rs` to the
callback `bt_app_gap_cb` of `bluetooth_gap_esp32.rs`. The two sides share one slot behind a
mutex: while a scan is on, it holds the sender **and the first receiver** of the scan's channel.
`gap_start_discovery` returns a clone of that receiver, the callback broadcasts each result, and
the end of the scan closes the channel and empties the slot.

Channels are numbered as they are made, so a receiver is the number of its channel and its index
in it. A panic aborts the program and is recorded; nothing runs after it.

## Main results

* `scan_delivers_iff`: the results of one scan reach the caller if and only if there are at
  most two of them. The receiver in the slot never receives, so no result ever gives its slot in
  the channel back, and the third one makes the `unwrap` of the callback panic.
* `scan_overflows`: it does so with a caller that receives each result at once.
-/

namespace Esp32A2dpPlayer

/-! ### The properties of a discovery result -/

/-- `esp_bt_gap_dev_prop_t`: a property as the stack reports it. -/
inductive DevProp where
  | bdname (val : List UInt8)
  | cod (val : UInt32)
  | rssi (val : Int8)
  | eir (val : List UInt8)
  /-- A `type_` that is none of the four constants. -/
  | other (typ : UInt32)
  deriving DecidableEq

/-- `From<*const esp_bt_gap_dev_prop_t> for DeviceProperty`; `none` is its panic. -/
def DeviceProperty.fromDevProp : DevProp → Option DeviceProperty
  | .bdname val =>
    some (.name (String.ofList (val.flatMap fun byte ↦ hexDigits 2 byte.toNat)))
  | .cod val => some (.class ⟨val⟩)
  | .rssi val => some (.rssi val)
  | .eir val => some (.eir val)
  | .other _ => none

/-- The device that the property loop of `bt_app_gap_cb` builds; `none` is a panic. -/
def scannedDevice (bda : BDAddr) (props : List DevProp) : Option ScannedDevice :=
  props.foldlM (fun dev prop ↦ (DeviceProperty.fromDevProp prop).bind dev.addProperty)
    (.ofAddress bda)

/-! ### The slot and its channels -/

/-- The errors of the GAP calls. -/
inductive GapError where
  | anyhow (msg : String)
  | esp (code : Int32)
  deriving DecidableEq

/-- Where a callback panics. -/
inductive GapPanic where
  /-- A property of unknown type, or an EIR that `parse_eir` does not survive. -/
  | property
  /-- `sender.try_broadcast(scanned_device).unwrap()`. -/
  | tryBroadcast (e : TryBroadcastError)
  /-- A discovery state that is neither STARTED nor STOPPED. -/
  | discoveryState
  deriving DecidableEq

/-- A receiver: its channel and its index there. -/
structure DiscoveryReceiver where
  channel : ℕ
  index : ℕ
  deriving DecidableEq

/-- The `discovery` slot of `Esp32BluetoothGlobals` and every channel made for it. -/
structure Discovery where
  /-- The channel whose sender and first receiver are in the slot. -/
  discovery : Option ℕ
  channels : ℕ → BroadcastChannel ScannedDevice
  nextChannel : ℕ
  panic : Option GapPanic

/-- `esp_bt_gap_discovery_state_t`. -/
inductive GapDiscoveryState where
  | stopped
  | started
  | other (code : UInt32)

/-- The discovery events of `bt_app_gap_cb`. -/
inductive GapEvent where
  | discRes (bda : BDAddr) (props : List DevProp)
  | discStateChanged (state : GapDiscoveryState)

namespace Discovery

/-- No scan yet. -/
def new : Discovery where
  discovery := none
  channels _ := .broadcast 2
  nextChannel := 0
  panic := none

variable (d : Discovery)

/-- A new channel in the slot, and a clone of its first receiver. -/
def openChannel (capacity : ℕ) : DiscoveryReceiver × Discovery :=
  (⟨d.nextChannel, 1⟩, { d with
    discovery := some d.nextChannel
    channels := Function.update d.channels d.nextChannel
      ((BroadcastChannel.broadcast capacity).cloneReceiver 0)
    nextChannel := d.nextChannel + 1 })

/-- `gap_start_discovery`, with what `esp_bt_gap_start_discovery` returns if it is called. -/
def gapStartDiscovery (ret : Except Int32 Unit) :
    Except GapError DiscoveryReceiver × Discovery :=
  match d.discovery, ret with
  | some _, _ => (.error (.anyhow "Already scanning"), d)
  | none, .error code => (.error (.esp code), d)
  | none, .ok _ =>
    let (resultReceiver, d) := d.openChannel 2
    (.ok resultReceiver, d)

/-- `gap_cancel_discovery`, with what `esp_bt_gap_cancel_discovery` returns if it is called.
The slot stays as it is until the callback hears of the end of the scan. -/
def gapCancelDiscovery (ret : Except Int32 Unit) : Except GapError Unit :=
  match d.discovery, ret with
  | some _, .error code => .error (.esp code)
  | some _, .ok _ => .ok ()
  | none, _ => .error (.anyhow "No Discovery in progress")

/-- `sender.try_broadcast(scanned_device).unwrap()`, where there is a sender. -/
def broadcastDevice (dev : ScannedDevice) : Discovery :=
  match d.discovery with
  | none => d
  | some chan =>
    match (d.channels chan).tryBroadcast dev with
    | .ok c => { d with channels := Function.update d.channels chan c }
    | .error e => { d with panic := some (.tryBroadcast e) }

/-- The discovery branches of `bt_app_gap_cb`. -/
def btAppGapCb : GapEvent → Discovery
  | .discRes bda props =>
    match scannedDevice bda props with
    | none => { d with panic := some .property }
    | some dev => d.broadcastDevice dev
  | .discStateChanged .stopped =>
    match d.discovery with
    | none => d
    -- taking the pair out of the slot drops the first receiver
    | some chan => { d with
        discovery := none
        channels := Function.update d.channels chan
          ((d.channels chan).close.dropReceiver 0) }
  | .discStateChanged .started => d
  | .discStateChanged (.other _) => { d with panic := some .discoveryState }

/-- `recv` on a receiver of a scan. -/
def recv (r : DiscoveryReceiver) : Option (Except RecvError ScannedDevice × Discovery) :=
  ((d.channels r.channel).recv r.index).map fun (res, c) ↦
    (res, { d with channels := Function.update d.channels r.channel c })

variable {d}

theorem gapStartDiscovery_eq_ok_iff {ret : Except Int32 Unit} {r : DiscoveryReceiver}
    {d' : Discovery} : d.gapStartDiscovery ret = (.ok r, d') ↔
      d.discovery = none ∧ ret = .ok () ∧ d.openChannel 2 = (r, d') := by
  unfold gapStartDiscovery
  rcases d.discovery with - | chan
  · rcases ret with code | _ <;> simp [Prod.ext_iff]
  · simp

/-- A start that fails changes nothing, and there is a reason why it failed. -/
theorem gapStartDiscovery_error {ret : Except Int32 Unit} {e : GapError} {d' : Discovery}
    (h : d.gapStartDiscovery ret = (.error e, d')) :
    d' = d ∧ ¬ (d.discovery = none ∧ ret = .ok ()) := by
  unfold gapStartDiscovery at h
  rcases hslot : d.discovery with - | chan <;> rcases ret with code | _ <;>
    simp only [hslot, Prod.mk.injEq, reduceCtorEq, false_and] at h
  all_goals exact ⟨h.2.symm, by simp⟩

/-- Without a scan `gap_cancel_discovery` fails by itself, and with one it returns what the driver
answers. -/
theorem gapCancelDiscovery_eq (d : Discovery) (ret : Except Int32 Unit) :
    d.gapCancelDiscovery ret =
      if d.discovery.isSome then ret.mapError GapError.esp
      else .error (.anyhow "No Discovery in progress") := by
  rcases hslot : d.discovery with - | chan <;> rcases ret with code | _ <;>
    simp [gapCancelDiscovery, hslot, Except.mapError]

theorem gapCancelDiscovery_eq_ok_iff {ret : Except Int32 Unit} :
    d.gapCancelDiscovery ret = .ok () ↔ d.discovery.isSome ∧ ret = .ok () := by
  rw [gapCancelDiscovery_eq]
  rcases d.discovery with - | chan
  · simp
  · rcases ret with code | _ <;> simp [Except.mapError]

/-- The driver is called exactly where there is a scan: only there does its answer matter. -/
theorem gapCancelDiscovery_congr_iff :
    (∀ ret ret', d.gapCancelDiscovery ret = d.gapCancelDiscovery ret') ↔ d.discovery = none := by
  constructor
  · intro h
    by_contra hslot
    have hsome : d.discovery.isSome := Option.isSome_iff_ne_none.2 hslot
    have hok := gapCancelDiscovery_eq_ok_iff.2 ⟨hsome, rfl⟩
    rw [h (.ok ()) (.error 0), gapCancelDiscovery_eq_ok_iff] at hok
    cases hok.2
  · intro hslot ret ret'
    simp [gapCancelDiscovery_eq, hslot]

theorem recv_eq_some {r : DiscoveryReceiver} {res : Except RecvError ScannedDevice}
    {c : BroadcastChannel ScannedDevice}
    (h : (d.channels r.channel).recv r.index = some (res, c)) :
    d.recv r = some (res, { d with channels := Function.update d.channels r.channel c }) := by
  rw [recv, h]
  rfl

theorem recv_eq_none {r : DiscoveryReceiver}
    (h : (d.channels r.channel).recv r.index = none) : d.recv r = none := by
  rw [recv, h]
  rfl

/-- What a callback does to the channels: nothing, one more message, or the end of a scan. -/
theorem btAppGapCb_cases (d : Discovery) (e : GapEvent) :
    (((d.btAppGapCb e).discovery = d.discovery ∧ (d.btAppGapCb e).channels = d.channels) ∧
        (e = .discStateChanged .stopped → d.discovery = none)) ∨
      (∃ chan dev c, d.discovery = some chan ∧ (d.channels chan).tryBroadcast dev = .ok c ∧
        (∃ bda props, e = .discRes bda props) ∧
        d.btAppGapCb e = { d with channels := Function.update d.channels chan c }) ∨
      ∃ chan, d.discovery = some chan ∧ e = .discStateChanged .stopped ∧
        d.btAppGapCb e = { d with
          discovery := none
          channels := Function.update d.channels chan
            ((d.channels chan).close.dropReceiver 0) } := by
  rcases e with ⟨bda, props⟩ | - | - | code
  · rcases hdev : scannedDevice bda props with - | dev
    · exact Or.inl ⟨by simp [btAppGapCb, hdev], nofun⟩
    · rcases hslot : d.discovery with - | chan
      · exact Or.inl ⟨by simp [btAppGapCb, broadcastDevice, hdev, hslot], nofun⟩
      · rcases hsend : (d.channels chan).tryBroadcast dev with err | c
        · exact Or.inl ⟨by simp [btAppGapCb, broadcastDevice, hdev, hslot, hsend], nofun⟩
        · exact Or.inr (Or.inl ⟨chan, dev, c, rfl, hsend, ⟨bda, props, rfl⟩,
            by simp [btAppGapCb, broadcastDevice, hdev, hslot, hsend]⟩)
  · rcases hslot : d.discovery with - | chan
    · exact Or.inl ⟨by simp [btAppGapCb, hslot], fun _ ↦ rfl⟩
    · exact Or.inr (Or.inr ⟨chan, rfl, rfl, by simp [btAppGapCb, hslot]⟩)
  · exact Or.inl ⟨⟨rfl, rfl⟩, nofun⟩
  · exact Or.inl ⟨⟨rfl, rfl⟩, nofun⟩

end Discovery

/-! ### One scan and its caller -/

/-- A scan whose caller keeps receiving. -/
structure Scan where
  discovery : Discovery
  /-- What `gap_start_discovery` returned. -/
  receiver : DiscoveryReceiver
  /-- What `recv` has returned so far. -/
  obtained : List ScannedDevice

/-- The steps of a scan in progress. -/
inductive ScanAction where
  | discRes (bda : BDAddr) (props : List DevProp)
  | recv

namespace Scan

/-- One step of the callback or of the caller. -/
def step (s : Scan) : ScanAction → Option Scan
  | .discRes bda props =>
    match s.discovery.panic with
    | some _ => none
    | none => some { s with discovery := s.discovery.btAppGapCb (.discRes bda props) }
  | .recv =>
    match s.discovery.panic, s.discovery.recv s.receiver with
    | none, some (.ok dev, d) => some { s with discovery := d, obtained := s.obtained ++ [dev] }
    | none, some (.error _, d) => some { s with discovery := d }
    | _, _ => none

/-- A scan as a machine. -/
def machine : StepMachine Scan ScanAction := ⟨step⟩

variable {s t : Scan} {bda : BDAddr} {props : List DevProp} {dev : ScannedDevice}

theorem step_discRes_cases (h : s.step (.discRes bda props) = some t) :
    s.discovery.panic = none ∧
      t = { s with discovery := s.discovery.btAppGapCb (.discRes bda props) } := by
  rw [step] at h
  split at h
  · cases h
  next hpanic =>
    exact ⟨hpanic, (Option.some.inj h).symm⟩

/-! ### What a scan delivers -/

/-- The device of a result, where the callback gets as far as broadcasting it. -/
def device? : ScanAction → Option ScannedDevice
  | .discRes bda props => scannedDevice bda props
  | .recv => none

/-- The devices of the results the callback has handled. -/
def results (as : List ScanAction) : List ScannedDevice := as.filterMap device?

theorem results_concat {as : List ScanAction} {a : ScanAction} :
    results (as ++ [a]) = results as ++ (device? a).toList := by
  rw [results, results, List.filterMap_append]
  rcases ha : device? a with - | dev <;> simp [ha]

/-- The channel of the scan. -/
def channel (s : Scan) : BroadcastChannel ScannedDevice :=
  s.discovery.channels s.receiver.channel

/-- A scan in which every result so far has been broadcast. -/
structure Live (devs : List ScannedDevice) (s : Scan) : Prop where
  panic : s.discovery.panic = none
  slot : s.discovery.discovery = some s.receiver.channel
  index : s.receiver.index ≠ 0
  capacity : s.channel.capacity = 2
  opened : s.channel.closed = false
  sent : s.channel.sent = devs
  /-- The receiver in the slot has received nothing. -/
  first : s.channel.position 0 = some 0
  position : s.channel.position s.receiver.index = some s.obtained.length
  obtained : s.obtained <+: devs
  few : devs.length ≤ 2

/-- What has become of a scan. -/
inductive Phase (devs : List ScannedDevice) (s : Scan) : Prop where
  | live (h : Live devs s)
  | property (hpanic : s.discovery.panic = some .property) (few : devs.length ≤ 2)
  | overflow (e : TryBroadcastError) (hpanic : s.discovery.panic = some (.tryBroadcast e))
      (many : 2 < devs.length)

variable {devs : List ScannedDevice}

/-- The first receiver keeps every message in the queue, so the third result does not fit. -/
theorem Live.tryBroadcast (hs : Live devs s) (dev : ScannedDevice) :
    (devs.length < 2 ∧ ∃ c, s.channel.tryBroadcast dev = .ok c) ∨
      (devs.length = 2 ∧ s.channel.tryBroadcast dev = .error .full) := by
  have hqueue : s.channel.queue.length = devs.length := by
    rw [BroadcastChannel.queue_eq_sent hs.first, hs.sent]
  have hactive : s.channel.positions.reduceOption ≠ [] :=
    List.ne_nil_of_mem (List.reduceOption_mem_iff.2 (BroadcastChannel.mem_positions hs.first))
  rcases Nat.lt_or_ge devs.length 2 with hlt | hge
  · refine Or.inl ⟨hlt, _, BroadcastChannel.tryBroadcast_eq_ok_iff.2
      ⟨hs.opened, hactive, ?_, rfl⟩⟩
    rwa [hqueue, hs.capacity]
  · refine Or.inr ⟨le_antisymm hs.few hge, ?_⟩
    have hfull : s.channel.capacity ≤ s.channel.queue.length := by
      rwa [hqueue, hs.capacity]
    simp [BroadcastChannel.tryBroadcast, hs.opened, hactive, hfull]

/-- A result is broadcast, or aborts the program. -/
theorem Live.discRes (hs : Live devs s) :
    Phase (devs ++ (scannedDevice bda props).toList)
      { s with discovery := s.discovery.btAppGapCb (.discRes bda props) } := by
  rcases hdev : scannedDevice bda props with - | dev
  · refine .property ?_ (by simpa using hs.few)
    simp [Discovery.btAppGapCb, hdev]
  · rcases hs.tryBroadcast dev with ⟨hlt, c, hc⟩ | ⟨hlen, hfull⟩
    · obtain ⟨hsent, hpos, hclosed, hcap⟩ := BroadcastChannel.sent_of_tryBroadcast hc
      have hcb : s.discovery.btAppGapCb (.discRes bda props) = { s.discovery with
          channels := Function.update s.discovery.channels s.receiver.channel c } := by
        simp only [Discovery.btAppGapCb, Discovery.broadcastDevice, hdev, hs.slot]
        rw [show s.discovery.channels s.receiver.channel = s.channel from rfl, hc]
      rw [hcb]
      have hchan : channel { s with discovery := { s.discovery with
          channels := Function.update s.discovery.channels s.receiver.channel c } } = c := by
        simp [channel]
      refine .live ⟨hs.panic, hs.slot, hs.index, ?_, ?_, ?_, ?_, ?_, ?_, ?_⟩
      · rw [hchan, hcap, hs.capacity]
      · rw [hchan, hclosed, hs.opened]
      · rw [hchan, hsent, hs.sent]
        rfl
      · rw [hchan, BroadcastChannel.position_of_tryBroadcast hc, hs.first]
      · rw [hchan, BroadcastChannel.position_of_tryBroadcast hc, hs.position]
      · exact hs.obtained.trans (List.prefix_append _ _)
      · simpa using Nat.succ_le_of_lt hlt
    · refine .overflow .full ?_ (by simp [hlen])
      simp only [Discovery.btAppGapCb, Discovery.broadcastDevice, hdev, hs.slot]
      rw [show s.discovery.channels s.receiver.channel = s.channel from rfl, hfull]

/-- The caller can receive as long as it has not obtained everything. -/
theorem Live.exists_recv (hs : Live devs s) (hlt : s.obtained.length < devs.length) :
    ∃ t, s.step .recv = some t ∧ Live devs t ∧
      t.obtained.length = s.obtained.length + 1 := by
  obtain ⟨dev, hdev, hpre⟩ : ∃ dev, devs[s.obtained.length]? = some dev ∧
      s.obtained ++ [dev] <+: devs :=
    ⟨_, List.getElem?_eq_getElem hlt, List.concat_get_prefix hs.obtained hlt⟩
  have hm : s.channel.sent[s.obtained.length]? = some dev := by rwa [hs.sent]
  obtain ⟨c, hc, hsent, hclosed, hcap, hpos⟩ := BroadcastChannel.recv_of_lt hs.position hm
  have hrecv := Discovery.recv_eq_some hc
  refine ⟨{ s with
      discovery := { s.discovery with
        channels := Function.update s.discovery.channels s.receiver.channel c }
      obtained := s.obtained ++ [dev] }, ?_, ?_, by simp⟩
  · simp [step, hs.panic, hrecv]
  · have hchan : channel { s with
        discovery := { s.discovery with
          channels := Function.update s.discovery.channels s.receiver.channel c }
        obtained := s.obtained ++ [dev] } = c := by
      simp [channel]
    refine ⟨hs.panic, hs.slot, hs.index, ?_, ?_, ?_, ?_, ?_, hpre, hs.few⟩
    · rw [hchan, hcap, hs.capacity]
    · rw [hchan, hclosed, hs.opened]
    · rw [hchan, hsent, hs.sent]
    · rw [hchan, BroadcastChannel.position_set_of_ne hs.index.symm hpos, hs.first]
    · rw [hchan, BroadcastChannel.position_set_self hs.position hpos, List.length_append,
        List.length_singleton]

/-- A caller that has obtained everything waits. -/
theorem Live.recv_eq_none (hs : Live devs s) (hge : devs.length ≤ s.obtained.length) :
    s.step .recv = none := by
  have hlen : s.obtained.length = devs.length := le_antisymm hs.obtained.length_le hge
  have hpos : s.channel.position s.receiver.index = some s.channel.sent.length := by
    rw [hs.position, hs.sent, hlen]
  have hwait : s.channel.recv s.receiver.index = none := by
    rw [BroadcastChannel.recv_of_eq hpos, hs.opened]
    rfl
  simp [step, hs.panic, Discovery.recv_eq_none hwait]

/-- The step lemma of a scan. -/
theorem phase_of_step {a : ScanAction} (hs : Phase devs s) (h : s.step a = some t) :
    Phase (devs ++ (device? a).toList) t := by
  cases a with
  | discRes bda props =>
    obtain ⟨hpanic, rfl⟩ := step_discRes_cases h
    cases hs with
    | live hs => exact hs.discRes
    | property hp => simp [hpanic] at hp
    | overflow e hp => simp [hpanic] at hp
  | recv =>
    rw [device?, Option.toList_none, List.append_nil]
    cases hs with
    | live hs =>
      rcases Nat.lt_or_ge s.obtained.length devs.length with hlt | hge
      · obtain ⟨u, hu, hlive, -⟩ := hs.exists_recv hlt
        rw [hu] at h
        exact .live (Option.some.inj h ▸ hlive)
      · rw [hs.recv_eq_none hge] at h
        cases h
    | property hp => simp [step, hp] at h
    | overflow e hp => simp [step, hp] at h

/-- The caller can obtain the rest of what has been broadcast. -/
theorem Live.exists_drain (hs : Live devs s) :
    ∃ k t, machine.run s (List.replicate k .recv) = some t ∧ t.obtained = devs := by
  induction hn : devs.length - s.obtained.length generalizing s with
  | zero =>
    refine ⟨0, s, rfl, hs.obtained.eq_of_length_le (by omega)⟩
  | succ n ih =>
    obtain ⟨t, ht, hlive, hlen⟩ := hs.exists_recv (by omega)
    obtain ⟨k, u, hu, hobt⟩ := ih hlive (by omega)
    refine ⟨k + 1, u, ?_, hobt⟩
    rw [List.replicate_succ, StepMachine.run_cons, show machine.step s .recv = some t from ht]
    exact hu

/-! ### When a scan delivers -/

variable {as : List ScanAction} {d d' : Discovery} {ret : Except Int32 Unit}
  {receiver : DiscoveryReceiver}

/-- A scan that has just started. -/
theorem live_of_start (hd : d.panic = none)
    (h : d.gapStartDiscovery ret = (.ok receiver, d')) : Live [] ⟨d', receiver, []⟩ := by
  obtain ⟨-, -, hopen⟩ := Discovery.gapStartDiscovery_eq_ok_iff.1 h
  obtain ⟨rfl, rfl⟩ : (d.openChannel 2).1 = receiver ∧ (d.openChannel 2).2 = d' := by
    simp [hopen]
  have hchan : channel ⟨(d.openChannel 2).2, (d.openChannel 2).1, []⟩ =
      (BroadcastChannel.broadcast 2).cloneReceiver 0 :=
    Function.update_self d.nextChannel _ d.channels
  exact ⟨hd, rfl, Nat.one_ne_zero, by rw [hchan]; rfl, by rw [hchan]; rfl, by rw [hchan]; rfl,
    by rw [hchan]; rfl, by rw [hchan]; rfl, List.prefix_rfl, by simp⟩

theorem phase_of_run (hd : d.panic = none)
    (h : d.gapStartDiscovery ret = (.ok receiver, d'))
    (hrun : machine.run ⟨d', receiver, []⟩ as = some s) : Phase (results as) s := by
  refine machine.run_invariant (I := fun as s ↦ Phase (results as) s)
    (.live (live_of_start hd h)) ?_ hrun
  intro as s a t _ hs ht
  rw [results_concat]
  exact phase_of_step hs ht

/-- **Which scans deliver.** In a run of one scan no broadcast fails, and the caller obtains
exactly the results by receiving on, if and only if there are at most two results — however far
the caller is with receiving. -/
theorem scan_delivers_iff (hd : d.panic = none)
    (h : d.gapStartDiscovery ret = (.ok receiver, d'))
    (hrun : machine.run ⟨d', receiver, []⟩ as = some s) :
    ((∀ e, s.discovery.panic ≠ some (.tryBroadcast e)) ∧ (s.discovery.panic = none →
        ∃ k t, machine.run s (List.replicate k .recv) = some t ∧ t.obtained = results as)) ↔
      (results as).length ≤ 2 := by
  cases phase_of_run hd h hrun with
  | live hs => exact iff_of_true ⟨by simp [hs.panic], fun _ ↦ hs.exists_drain⟩ hs.few
  | property hp few => exact iff_of_true ⟨by simp [hp], by simp [hp]⟩ few
  | overflow e hp many => exact iff_of_false (fun hall ↦ hall.1 e hp) (by omega)

/-- When a result comes, the caller has received all earlier ones but at most one. -/
def KeepsUp (s : Scan) : ScanAction → Prop
  | .discRes _ _ => s.channel.sent.length ≤ s.obtained.length + 1
  | .recv => True

/-- A result without properties. -/
def bareResult (n : UInt8) : ScanAction := .discRes (Vector.replicate 6 n) []

/-- The scan that a first `gap_start_discovery` starts. -/
def started : Scan := ⟨(Discovery.new.openChannel 2).2, ⟨0, 1⟩, []⟩

theorem scan_delivers_two : ∃ s, machine.run started [bareResult 1, .recv, bareResult 2] = some s ∧
    (∀ e, s.discovery.panic ≠ some (.tryBroadcast e)) ∧ (s.discovery.panic = none →
      ∃ k t, machine.run s (List.replicate k .recv) = some t ∧
        t.obtained = results [bareResult 1, .recv, bareResult 2]) := by
  have hstart : Discovery.new.gapStartDiscovery (.ok ()) = (.ok ⟨0, 1⟩, started.discovery) := rfl
  exact ⟨_, rfl, (scan_delivers_iff rfl hstart rfl).2 (by decide)⟩

/-- A caller that receives each result before the next one is delivered. -/
def promptRun : List ScanAction :=
  [bareResult 1, .recv, bareResult 2, .recv, bareResult 3]

/-- The third result aborts the program. -/
theorem scan_overflows : ¬ ∀ (as : List ScanAction) (s : Scan),
    machine.AllSteps KeepsUp started as → machine.run started as = some s →
      ∀ e, s.discovery.panic ≠ some (.tryBroadcast e) := by
  intro hall
  have hkeeps : machine.AllSteps KeepsUp started promptRun := by
    refine .cons ?_ rfl <| .cons trivial rfl <| .cons ?_ rfl <| .cons trivial rfl <|
      .cons ?_ rfl .nil
    · exact Nat.zero_le 1
    · exact Nat.le_succ 1
    · exact Nat.le_succ 2
  exact hall promptRun _ hkeeps rfl .full rfl

end Scan

end Esp32A2dpPlayer
