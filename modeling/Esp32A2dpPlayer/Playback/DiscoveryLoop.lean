import Esp32A2dpPlayer.Bluetooth.Discovery
import Esp32A2dpPlayer.Bluetooth.EirEncoding

/-!
# The discovery loop of the Playback state

The loop of `playback_state.rs` that waits for a headset: as long as nothing has been found and
the channel is not closed, receive a device, print it, and keep it if it offers the profile. The
callbacks of the scan run against it in any order.

`is_closed` is asked **before** each receive, and it is true as soon as the scan has ended, with
results still in the queue. So whether the last results count depends on where the loop stands
when the scan ends.

The capacity of the channel is a parameter. `gap_start_discovery` opens it with `2`, and then no
scan can broadcast a third result; the loop is judged for any number of them.

## Main results

* `loop_found_iff`: the loop never reaches its panic, and a loop that has ended has found the
  first suitable device of the scan if and only if the end of the scan found that device already
  received, or next in the queue with the loop at its `recv`.
* `loop_overlooks`: a scan that ends in the other order.
-/

namespace Esp32A2dpPlayer

/-- Where the loop panics. -/
inductive LoopPanic where
  /-- Printing the device. -/
  | print
  /-- `panic!("Error waiting for discovery: ..")`. -/
  | waiting
  deriving DecidableEq

/-- Where the loop stands. -/
inductive LoopPc where
  /-- At the condition of the loop. -/
  | test
  /-- At `discovery.recv().await`. -/
  | recv
  /-- A device has been received. -/
  | device (dev : ScannedDevice)
  /-- `recv` has failed. -/
  | error
  /-- Past the loop. -/
  | ended
  | panicked (p : LoopPanic)
  deriving DecidableEq

/-- The loop, with the scan it waits for. -/
structure DiscoveryLoop where
  discovery : Discovery
  receiver : DiscoveryReceiver
  found : Option ScannedDevice
  pc : LoopPc

/-- The steps of the callbacks and of the loop. -/
inductive LoopAction where
  | gap (e : GapEvent)
  | loop

/-- The profile the loop looks for. -/
def suitable (dev : ScannedDevice) : Bool :=
  dev.has16bitUuid Bluetooth16bitUUID.advancedAudioDistribution.toU16

namespace DiscoveryLoop

/-- The channel of the scan. -/
def channel (s : DiscoveryLoop) : BroadcastChannel ScannedDevice :=
  s.discovery.channels s.receiver.channel

/-- One step of the loop. -/
def loopStep (s : DiscoveryLoop) : Option DiscoveryLoop :=
  match s.pc with
  | .test =>
    if s.found.isNone && !s.channel.closed then some { s with pc := .recv }
    else some { s with pc := .ended }
  | .recv =>
    match s.discovery.recv s.receiver with
    | some (.ok dev, d) => some { s with discovery := d, pc := .device dev }
    | some (.error _, d) => some { s with discovery := d, pc := .error }
    | none => none
  | .device dev =>
    match dev.debug with
    | none => some { s with pc := .panicked .print }
    | some _ =>
      if suitable dev then some { s with found := some dev, pc := .test }
      else some { s with pc := .test }
  | .error =>
    if !s.channel.closed then some { s with pc := .panicked .waiting }
    else some { s with pc := .test }
  | .ended => none
  | .panicked _ => none

/-- One step. A panic of either side aborts the program. -/
def step (s : DiscoveryLoop) (a : LoopAction) : Option DiscoveryLoop :=
  match s.discovery.panic, s.pc, a with
  | some _, _, _ => none
  | none, .panicked _, _ => none
  | none, _, .gap e => some { s with discovery := s.discovery.btAppGapCb e }
  | none, _, .loop => s.loopStep

/-- The loop and the callbacks as a machine. -/
def machine : StepMachine DiscoveryLoop LoopAction := ⟨step⟩

/-- A scan that has just started, and the loop before its first test. -/
def start (d : Discovery) (capacity : ℕ) : DiscoveryLoop where
  discovery := (d.openChannel capacity).2
  receiver := (d.openChannel capacity).1
  found := none
  pc := .test

/-- How many devices the loop has received. -/
def taken (s : DiscoveryLoop) : ℕ := (s.channel.position s.receiver.index).getD 0

/-- The devices the loop has received. -/
def received (s : DiscoveryLoop) : List ScannedDevice := s.channel.sent.take s.taken

/-- The devices that have been broadcast and not received. -/
def pending (s : DiscoveryLoop) : List ScannedDevice := s.channel.sent.drop s.taken

/-- No suitable device goes unnoticed if the scan ends now: one has been received, or none is
left in the queue, or the next one is suitable and the loop is past its test. -/
def Caught (s : DiscoveryLoop) : Prop :=
  (∃ dev ∈ s.received, suitable dev) ∨ (∀ dev ∈ s.pending, ¬ suitable dev) ∨
    (s.pc = .recv ∧ ∃ dev, s.pending.head? = some dev ∧ suitable dev)

/-- The end of the scan comes at a moment when it may. -/
def StopsInTime (s : DiscoveryLoop) (a : LoopAction) : Prop :=
  a = .gap (.discStateChanged .stopped) → s.Caught

variable {s t : DiscoveryLoop}

/-- What the loop knows at each of its points. -/
def LoopOk (s : DiscoveryLoop) : Prop :=
  match s.pc with
  | .test => s.found = s.received.find? suitable
  | .recv => s.found = none ∧ s.received.find? suitable = none
  | .device dev => s.found = none ∧
      ∃ devs, s.received = devs ++ [dev] ∧ devs.find? suitable = none
  | .error => s.found = none ∧ s.received.find? suitable = none ∧
      s.channel.closed = true ∧ s.pending = []
  | .ended => s.found = s.received.find? suitable ∧
      (s.found = none → s.channel.closed = true)
  | .panicked .print => True
  | .panicked .waiting => False

/-- The invariant. `inTime` says whether the scan has not ended at a wrong moment. -/
structure Inv (inTime : Prop) (s : DiscoveryLoop) : Prop where
  active : s.channel.position s.receiver.index = some s.taken
  index : s.receiver.index ≠ 0
  slot : s.discovery.discovery =
    if s.channel.closed then none else some s.receiver.channel
  loopOk : s.LoopOk
  inTime : inTime ↔ (s.channel.closed = true → s.Caught)

theorem sent_eq (s : DiscoveryLoop) : s.channel.sent = s.received ++ s.pending :=
  (List.take_append_drop ..).symm

/-! ### The callbacks -/

theorem step_gap_cases {e : GapEvent} (h : s.step (.gap e) = some t) :
    t = { s with discovery := s.discovery.btAppGapCb e } := by
  unfold step at h
  split at h <;> simp_all

theorem step_loop_cases (h : s.step .loop = some t) : s.loopStep = some t := by
  unfold step at h
  split at h <;> simp_all

/-- What the loop knows survives new results, and the end of the scan. -/
theorem LoopOk.mono (hs : s.LoopOk) (hpc : t.pc = s.pc) (hfound : t.found = s.found)
    (hreceived : t.received = s.received)
    (hclosed : s.channel.closed = true → t.channel.closed = true ∧ t.pending = s.pending) :
    t.LoopOk := by
  unfold LoopOk at hs ⊢
  rw [hpc, hfound, hreceived]
  rcases hp : s.pc with - | - | dev | - | - | p
  · simpa [hp] using hs
  · simpa [hp] using hs
  · simpa [hp] using hs
  · simp only [hp] at hs ⊢
    obtain ⟨hnone, hfind, hcl, hpend⟩ := hs
    exact ⟨hnone, hfind, (hclosed hcl).1, (hclosed hcl).2.trans hpend⟩
  · simp only [hp] at hs ⊢
    exact ⟨hs.1, fun hnone ↦ (hclosed (hs.2 hnone)).1⟩
  · rcases p with - | -
    · trivial
    · simp [hp] at hs

theorem Caught.congr (hpc : t.pc = s.pc) (hreceived : t.received = s.received)
    (hpending : t.pending = s.pending) : t.Caught ↔ s.Caught := by
  rw [Caught, Caught, hpc, hreceived, hpending]

/-- Off its `recv`, the loop catches what it has received. -/
theorem caught_iff_of_ne_recv (hpc : s.pc ≠ .recv) :
    s.Caught ↔ (∃ dev ∈ s.received, suitable dev) ∨ ∀ dev ∈ s.pending, ¬ suitable dev := by
  simp [Caught, hpc]

/-- Past its test, the loop counts the next device of the queue as if it had received it. -/
theorem caught_iff_of_recv {dev : ScannedDevice} (hpc : s.pc = .recv)
    (hfind : s.received.find? suitable = none) (hreceived : t.received = s.received ++ [dev])
    (hpending : s.pending = dev :: t.pending) (hne : t.pc ≠ .recv) : s.Caught ↔ t.Caught := by
  have hno : ∀ dev' ∈ s.received, ¬ suitable dev' := by simpa using hfind
  rw [caught_iff_of_ne_recv hne, Caught, hreceived, hpending]
  constructor
  · rintro (⟨dev', hmem, hsuit⟩ | hall | ⟨-, dev', hhead, hsuit⟩)
    · exact absurd hsuit (hno dev' hmem)
    · exact Or.inr fun dev' hmem ↦ hall dev' (List.mem_cons_of_mem _ hmem)
    · obtain rfl : dev = dev' := by simpa using hhead
      exact Or.inl ⟨dev, by simp, hsuit⟩
  · rintro (⟨dev', hmem, hsuit⟩ | hall)
    · rcases List.mem_append.1 hmem with hmem | hmem
      · exact absurd hsuit (hno dev' hmem)
      · obtain rfl := List.mem_singleton.1 hmem
        exact Or.inr (Or.inr ⟨hpc, dev', rfl, hsuit⟩)
    · by_cases hsuit : suitable dev
      · exact Or.inr (Or.inr ⟨hpc, dev, rfl, hsuit⟩)
      · exact Or.inr (Or.inl (List.forall_mem_cons.2 ⟨hsuit, hall⟩))

/-- The slot is full exactly while the channel of the scan is open. -/
theorem Inv.of_slot {inTime : Prop} (hs : Inv inTime s) {chan : ℕ}
    (hslot : s.discovery.discovery = some chan) :
    s.channel.closed = false ∧ chan = s.receiver.channel := by
  have heq := hs.slot
  rw [hslot] at heq
  split at heq
  · cases heq
  next hcl =>
    exact ⟨by simpa using hcl, Option.some.inj heq⟩

theorem taken_congr {d : Discovery} {c : BroadcastChannel ScannedDevice}
    (hchan : channel { s with discovery := d } = c)
    (hpos : c.position s.receiver.index = s.channel.position s.receiver.index) :
    taken { s with discovery := d } = s.taken := by
  rw [taken, hchan, taken, hpos]

/-- A callback that leaves the slot and the channels alone. -/
theorem inv_unchanged {inTime : Prop} {e : GapEvent} {d : Discovery} (hs : Inv inTime s)
    (hslot : d.discovery = s.discovery.discovery) (hchannels : d.channels = s.discovery.channels)
    (hstop : e = .discStateChanged .stopped → s.discovery.discovery = none) :
    Inv (inTime ∧ s.StopsInTime (.gap e)) { s with discovery := d } := by
  have hchan : channel { s with discovery := d } = s.channel := congrFun hchannels _
  have htaken : taken { s with discovery := d } = s.taken := taken_congr hchan rfl
  have hreceived : received { s with discovery := d } = s.received := by
    rw [received, hchan, htaken, received]
  have hpending : pending { s with discovery := d } = s.pending := by
    rw [pending, hchan, htaken, pending]
  refine ⟨?_, hs.index, ?_, hs.loopOk.mono rfl rfl hreceived
    fun hcl ↦ ⟨hchan ▸ hcl, hpending⟩, ?_⟩
  · rw [hchan, htaken]
    exact hs.active
  · rw [hchan]
    exact hslot.trans hs.slot
  · have hcaught : Caught { s with discovery := d } ↔ s.Caught :=
      Caught.congr rfl hreceived hpending
    rw [hs.inTime, hchan, hcaught]
    refine ⟨fun hin ↦ hin.1, fun hin ↦ ⟨hin, fun he ↦ hin ?_⟩⟩
    -- a STOPPED that does nothing comes after the end of the scan
    cases he
    have hnone := hs.slot
    rw [hstop rfl] at hnone
    by_contra hcl
    simp [hcl] at hnone

/-- A callback that puts one more result in the queue. -/
theorem inv_broadcast {inTime : Prop} {bda : BDAddr} {props : List DevProp} {chan : ℕ}
    {dev : ScannedDevice} {c : BroadcastChannel ScannedDevice} {d : Discovery}
    (hs : Inv inTime s) (hslot : s.discovery.discovery = some chan)
    (hsend : (s.discovery.channels chan).tryBroadcast dev = .ok c)
    (hd : d = { s.discovery with
      channels := Function.update s.discovery.channels chan c }) :
    Inv (inTime ∧ s.StopsInTime (.gap (.discRes bda props))) { s with discovery := d } := by
  obtain ⟨hopen, rfl⟩ := hs.of_slot hslot
  have hsend : s.channel.tryBroadcast dev = .ok c := hsend
  obtain ⟨hsent, -, hclosed, -⟩ := BroadcastChannel.sent_of_tryBroadcast hsend
  have hchan : channel { s with discovery := d } = c := by simp [channel, hd]
  have htaken : taken { s with discovery := d } = s.taken :=
    taken_congr hchan (BroadcastChannel.position_of_tryBroadcast hsend)
  have hreceived : received { s with discovery := d } = s.received := by
    rw [received, hchan, htaken, hsent, received,
      List.take_append_of_le_length (BroadcastChannel.le_of_position hs.active)]
  have hopen' : c.closed = false := hclosed.trans hopen
  refine ⟨?_, hs.index, ?_, hs.loopOk.mono rfl rfl hreceived (by simp [hopen]), ?_⟩
  · rw [hchan, htaken]
    exact (BroadcastChannel.position_of_tryBroadcast hsend).trans hs.active
  · rw [hchan, hopen', hd]
    exact hslot
  · rw [hchan, hopen', hs.inTime, hopen]
    simp [StopsInTime]

/-- The callback that ends the scan. -/
theorem inv_stopped {inTime : Prop} {chan : ℕ} {d : Discovery} (hs : Inv inTime s)
    (hslot : s.discovery.discovery = some chan)
    (hd : d = { s.discovery with
      discovery := none
      channels := Function.update s.discovery.channels chan
        ((s.discovery.channels chan).close.dropReceiver 0) }) :
    Inv (inTime ∧ s.StopsInTime (.gap (.discStateChanged .stopped)))
      { s with discovery := d } := by
  obtain ⟨hopen, rfl⟩ := hs.of_slot hslot
  have hchan : channel { s with discovery := d } = s.channel.close.dropReceiver 0 := by
    simp [channel, hd]
  have hpos : (s.channel.close.dropReceiver 0).position s.receiver.index =
      s.channel.position s.receiver.index :=
    BroadcastChannel.dropReceiver_position_of_ne hs.index
  have hclosed : (s.channel.close.dropReceiver 0).closed = true :=
    BroadcastChannel.dropReceiver_closed rfl
  have htaken : taken { s with discovery := d } = s.taken := taken_congr hchan hpos
  have hreceived : received { s with discovery := d } = s.received := by
    rw [received, hchan, htaken]
    rfl
  have hpending : pending { s with discovery := d } = s.pending := by
    rw [pending, hchan, htaken]
    rfl
  refine ⟨?_, hs.index, ?_, hs.loopOk.mono rfl rfl hreceived (by simp [hopen]), ?_⟩
  · rw [hchan, htaken]
    exact hpos.trans hs.active
  · rw [hchan, hclosed, hd]
    rfl
  · have hcaught : Caught { s with discovery := d } ↔ s.Caught :=
      Caught.congr rfl hreceived hpending
    rw [hchan, hclosed, hs.inTime, hopen, hcaught]
    simp [StopsInTime]

/-- The step lemma of the callbacks. -/
theorem inv_gap {inTime : Prop} {e : GapEvent} (hs : Inv inTime s)
    (h : s.step (.gap e) = some t) : Inv (inTime ∧ s.StopsInTime (.gap e)) t := by
  obtain rfl := step_gap_cases h
  obtain ⟨⟨hslot, hchannels⟩, hstop⟩ | ⟨chan, dev, c, hslot, hsend, ⟨bda, props, rfl⟩, hcb⟩ |
    ⟨chan, hslot, rfl, hcb⟩ := s.discovery.btAppGapCb_cases e
  · exact inv_unchanged hs hslot hchannels hstop
  · exact inv_broadcast hs hslot hsend hcb
  · exact inv_stopped hs hslot hcb

/-! ### The loop -/

theorem inv_test {inTime : Prop} (hs : Inv inTime s) (hpc : s.pc = .test)
    (h : s.loopStep = some t) : Inv inTime t := by
  have hok : s.found = s.received.find? suitable := by simpa [LoopOk, hpc] using hs.loopOk
  rw [loopStep, hpc] at h
  dsimp only at h
  split at h
  next hcond =>
    obtain rfl := Option.some.inj h
    obtain ⟨hnone, hopen⟩ : s.found = none ∧ s.channel.closed = false := by
      simpa using hcond
    refine ⟨hs.active, hs.index, hs.slot, ⟨hnone, hok ▸ hnone⟩, hs.inTime.trans ?_⟩
    exact iff_of_true (by simp [hopen]) fun hcl ↦ absurd (hopen ▸ hcl) (by simp)
  next hcond =>
    obtain rfl := Option.some.inj h
    refine ⟨hs.active, hs.index, hs.slot, ⟨hok, fun hnone ↦ ?_⟩, hs.inTime.trans ?_⟩
    · have hnone : s.found = none := hnone
      have hclosed : s.channel.closed = true := by simpa [hnone] using hcond
      exact hclosed
    · rw [caught_iff_of_ne_recv (by simp [hpc]), caught_iff_of_ne_recv (by simp)]
      rfl

/-- A loop that has received everything learns of the end of the scan, or waits. -/
theorem inv_recv_of_eq {inTime : Prop} (hs : Inv inTime s) (hpc : s.pc = .recv)
    (hlen : s.taken = s.channel.sent.length) (h : s.loopStep = some t) : Inv inTime t := by
  obtain ⟨hnone, hfind⟩ : s.found = none ∧ s.received.find? suitable = none := by
    simpa [LoopOk, hpc] using hs.loopOk
  have hpending : s.pending = [] := List.drop_eq_nil_iff.2 hlen.ge
  have hrecv := BroadcastChannel.recv_of_eq (hlen ▸ hs.active)
  rw [loopStep, hpc] at h
  rcases hclosed : s.channel.closed with - | -
  · rw [hclosed] at hrecv
    simp only [Discovery.recv_eq_none hrecv] at h
    cases h
  · rw [hclosed] at hrecv
    simp only [Discovery.recv_eq_some hrecv] at h
    obtain rfl := Option.some.inj h
    have hchan : Function.update s.discovery.channels s.receiver.channel s.channel =
        s.discovery.channels := Function.update_eq_self ..
    rw [hchan]
    refine ⟨hs.active, hs.index, hs.slot, ⟨hnone, hfind, hclosed, hpending⟩,
      hs.inTime.trans ?_⟩
    -- with an empty queue the scan may end at any moment
    refine iff_of_true (fun _ ↦ Or.inr (Or.inl ?_)) (fun _ ↦ Or.inr (Or.inl ?_))
    · rw [hpending]
      nofun
    · intro dev hdev
      have hdev : dev ∈ s.pending := hdev
      rw [hpending] at hdev
      cases hdev

/-- A loop that has not received everything gets the next device. -/
theorem inv_recv_of_lt {inTime : Prop} {dev : ScannedDevice} (hs : Inv inTime s)
    (hpc : s.pc = .recv) (hm : s.channel.sent[s.taken]? = some dev)
    (h : s.loopStep = some t) : Inv inTime t := by
  obtain ⟨hnone, hfind⟩ : s.found = none ∧ s.received.find? suitable = none := by
    simpa [LoopOk, hpc] using hs.loopOk
  obtain ⟨c, hc, hsent, hclosed, -, hpos⟩ := BroadcastChannel.recv_of_lt hs.active hm
  have hset := BroadcastChannel.position_set_self hs.active hpos
  rw [loopStep, hpc] at h
  simp only [Discovery.recv_eq_some hc] at h
  obtain rfl := Option.some.inj h
  generalize hd : ({ s.discovery with
    channels := Function.update s.discovery.channels s.receiver.channel c } : Discovery) = d
  have hchan : channel { s with discovery := d, pc := .device dev } = c := by
    simp [channel, ← hd]
  have htaken : taken { s with discovery := d, pc := .device dev } = s.taken + 1 := by
    rw [taken, hchan, hset]
    rfl
  have hreceived : received { s with discovery := d, pc := .device dev } =
      s.received ++ [dev] := by
    rw [received, hchan, htaken, hsent, List.take_add_one, hm]
    rfl
  have hpending : s.pending = dev :: pending { s with discovery := d, pc := .device dev } := by
    obtain ⟨hlt, rfl⟩ := List.getElem?_eq_some_iff.1 hm
    rw [pending, pending, hchan, htaken, hsent, List.drop_eq_getElem_cons hlt]
  have hcaught : s.Caught ↔ Caught { s with discovery := d, pc := .device dev } :=
    caught_iff_of_recv hpc hfind hreceived hpending (by simp)
  refine ⟨?_, hs.index, ?_, ⟨hnone, s.received, hreceived, hfind⟩, hs.inTime.trans ?_⟩
  · rw [hchan, htaken]
    exact hset
  · rw [hchan, hclosed, ← hd]
    exact hs.slot
  · rw [hchan, hclosed, hcaught]

theorem inv_device {inTime : Prop} {dev : ScannedDevice} (hs : Inv inTime s)
    (hpc : s.pc = .device dev) (h : s.loopStep = some t) : Inv inTime t := by
  obtain ⟨hnone, devs, hreceived, hdevs⟩ : s.found = none ∧
      ∃ devs, s.received = devs ++ [dev] ∧ devs.find? suitable = none := by
    simpa [LoopOk, hpc] using hs.loopOk
  have hin : ∀ found pc, pc ≠ .recv → (inTime ↔
      (s.channel.closed = true → Caught { s with found := found, pc := pc })) := by
    intro found pc hne
    rw [hs.inTime, caught_iff_of_ne_recv (by simp [hpc]), caught_iff_of_ne_recv hne]
    rfl
  rw [loopStep, hpc] at h
  dsimp only at h
  split at h
  · obtain rfl := Option.some.inj h
    exact ⟨hs.active, hs.index, hs.slot, trivial, hin _ _ (by simp)⟩
  · split at h
    next hsuit =>
      obtain rfl := Option.some.inj h
      refine ⟨hs.active, hs.index, hs.slot, ?_, hin _ _ (by simp)⟩
      have hfind : s.received.find? suitable = some dev := by
        simp [hreceived, hdevs, hsuit]
      exact hfind.symm
    next hsuit =>
      obtain rfl := Option.some.inj h
      refine ⟨hs.active, hs.index, hs.slot, ?_, hin _ _ (by simp)⟩
      have hfind : s.received.find? suitable = none := by
        simp [hreceived, hdevs, hsuit]
      exact hnone.trans hfind.symm

theorem inv_error {inTime : Prop} (hs : Inv inTime s) (hpc : s.pc = .error)
    (h : s.loopStep = some t) : Inv inTime t := by
  obtain ⟨hnone, hfind, hclosed, -⟩ : s.found = none ∧ s.received.find? suitable = none ∧
      s.channel.closed = true ∧ s.pending = [] := by
    simpa only [LoopOk, hpc] using hs.loopOk
  rw [loopStep, hpc] at h
  simp only [hclosed, Bool.not_true, Bool.false_eq_true, ↓reduceIte] at h
  obtain rfl := Option.some.inj h
  refine ⟨hs.active, hs.index, hs.slot, hnone.trans hfind.symm, hs.inTime.trans ?_⟩
  rw [caught_iff_of_ne_recv (by simp [hpc]), caught_iff_of_ne_recv (by simp)]
  rfl

/-- The step lemma of the loop. -/
theorem inv_loop {inTime : Prop} (hs : Inv inTime s) (h : s.loopStep = some t) :
    Inv inTime t := by
  rcases hpc : s.pc with - | - | dev | - | - | p
  · exact inv_test hs hpc h
  · have hle : s.taken ≤ s.channel.sent.length := BroadcastChannel.le_of_position hs.active
    rcases hm : s.channel.sent[s.taken]? with - | dev
    · exact inv_recv_of_eq hs hpc (le_antisymm hle (List.getElem?_eq_none_iff.1 hm)) h
    · exact inv_recv_of_lt hs hpc hm h
  · exact inv_device hs hpc h
  · exact inv_error hs hpc h
  · simp [loopStep, hpc] at h
  · simp [loopStep, hpc] at h

/-! ### What the loop finds -/

variable {as : List LoopAction} {d : Discovery} {capacity : ℕ}

theorem inv_start : Inv True (start d capacity) := by
  have hchan : (start d capacity).channel =
      (BroadcastChannel.broadcast capacity).cloneReceiver 0 :=
    Function.update_self d.nextChannel _ d.channels
  have htaken : (start d capacity).taken = 0 := by
    rw [taken, hchan]
    rfl
  refine ⟨?_, Nat.one_ne_zero, ?_, ?_, ?_⟩
  · rw [hchan, htaken]
    rfl
  · rw [hchan]
    rfl
  · rw [LoopOk, received, htaken]
    rfl
  · rw [hchan]
    simp [BroadcastChannel.cloneReceiver, BroadcastChannel.broadcast]

theorem inv_of_run (h : machine.run (start d capacity) as = some s) :
    Inv (machine.AllSteps StopsInTime (start d capacity) as) s := by
  refine machine.run_invariant
    (I := fun as s ↦ Inv (machine.AllSteps StopsInTime (start d capacity) as) s) ?_ ?_ h
  · have hnil : machine.AllSteps StopsInTime (start d capacity) [] ↔ True :=
      iff_true_intro .nil
    rw [hnil]
    exact inv_start
  · intro as s a t hs ih ht
    rw [StepMachine.allSteps_concat_iff hs]
    cases a with
    | gap e => exact inv_gap ih ht
    | loop =>
      have hloop : StopsInTime s .loop := nofun
      simpa [hloop] using inv_loop ih (step_loop_cases ht)

/-- **What the loop finds.** It never reaches `panic!("Error waiting for discovery")`, and once
it has ended, what it has found is the first suitable device of the scan if and only if the scan
ended in time. -/
theorem loop_found_iff (h : machine.run (start d capacity) as = some s) :
    s.pc ≠ .panicked .waiting ∧ (s.pc = .ended →
      (s.found = s.channel.sent.find? suitable ↔
        machine.AllSteps StopsInTime (start d capacity) as)) := by
  have hinv := inv_of_run h
  refine ⟨fun hpc ↦ by simpa [LoopOk, hpc] using hinv.loopOk, fun hpc ↦ ?_⟩
  obtain ⟨hfound, hclosed⟩ : s.found = s.received.find? suitable ∧
      (s.found = none → s.channel.closed = true) := by
    simpa only [LoopOk, hpc] using hinv.loopOk
  rw [hinv.inTime, caught_iff_of_ne_recv (by simp [hpc]), s.sent_eq, List.find?_append]
  rcases hf : s.found with - | dev
  · -- nothing found: the scan is over, and the queue holds what has been overlooked
    have hfind : s.received.find? suitable = none := hfound.symm.trans hf
    have hno : ∀ dev ∈ s.received, ¬ suitable dev := by simpa using hfind
    rw [hfind, Option.none_or, eq_comm, List.find?_eq_none]
    refine ⟨fun hpend _ ↦ Or.inr hpend, fun hcaught ↦ ?_⟩
    obtain ⟨dev, hmem, hsuit⟩ | hpend := hcaught (hclosed hf)
    · exact absurd hsuit (hno dev hmem)
    · exact hpend
  · have hfind : s.received.find? suitable = some dev := hfound.symm.trans hf
    rw [hfind, Option.some_or]
    exact iff_of_true rfl fun _ ↦ Or.inl ⟨dev, List.mem_of_find?_eq_some hfind,
      List.find?_some hfind⟩

/-! ### A headset -/

/-- A headset that lists the profile in its EIR, and nothing else. -/
def headset : ScannedDevice :=
  { ScannedDevice.ofAddress (Vector.replicate 6 1) with
    complete16BitServiceClassUuids := some [0x110d] }

/-- Its discovery result. -/
def headsetResult : GapEvent :=
  .discRes (Vector.replicate 6 1) [.eir [0x03, 0x03, 0x0d, 0x11]]

theorem scannedDevice_headset :
    scannedDevice (Vector.replicate 6 1) [.eir [0x03, 0x03, 0x0d, 0x11]] = some headset := by
  have hparse := ScannedDevice.parseEirFrom_encode [.uuids16 [0x110d] (by decide)]
    (Or.inl rfl) (ScannedDevice.ofAddress (Vector.replicate 6 1)) []
  rw [scannedDevice]
  simp only [List.foldlM_cons, List.foldlM_nil, DeviceProperty.fromDevProp, Option.bind_some,
    ScannedDevice.addProperty, bind_pure]
  exact hparse

/-- The state after the result of the headset. -/
def afterHeadset : DiscoveryLoop :=
  { start .new 2 with discovery := (start .new 2).discovery.broadcastDevice headset }

theorem step_headset :
    machine.step (start .new 2) (.gap headsetResult) = some afterHeadset := by
  have hcb : (start .new 2).discovery.btAppGapCb headsetResult =
      (start .new 2).discovery.broadcastDevice headset := by
    rw [headsetResult, Discovery.btAppGapCb, scannedDevice_headset]
  rw [afterHeadset, ← hcb]
  rfl

/-- The scan ends when the loop is already at its `recv`. -/
def caughtRun : List LoopAction :=
  [.gap headsetResult, .loop, .gap (.discStateChanged .stopped), .loop, .loop, .loop]

theorem loop_found_caught : ∃ s, machine.run (start .new 2) caughtRun = some s ∧
    s.pc = .ended ∧ s.found = s.channel.sent.find? suitable := by
  have hrun : machine.run (start .new 2) caughtRun = machine.run afterHeadset caughtRun.tail := by
    rw [caughtRun, StepMachine.run_cons, step_headset]
    rfl
  have hin : machine.AllSteps StopsInTime (start .new 2) caughtRun := by
    refine .cons nofun step_headset <| .cons nofun rfl <| .cons (fun _ ↦ ?_) rfl <|
      .cons nofun rfl <| .cons nofun rfl <| .cons nofun rfl .nil
    exact Or.inr (Or.inr ⟨rfl, headset, rfl, rfl⟩)
  exact ⟨_, hrun, rfl, ((loop_found_iff hrun).2 rfl).2 hin⟩

/-- The scan ends before the loop has made its first test. -/
def overlookedRun : List LoopAction :=
  [.gap headsetResult, .gap (.discStateChanged .stopped), .loop]

/-- The loop overlooks a headset whose result comes at the end of the scan. -/
theorem loop_overlooks : ¬ ∀ (as : List LoopAction) (s : DiscoveryLoop),
    machine.run (start .new 2) as = some s → s.pc = .ended →
      s.found = s.channel.sent.find? suitable := by
  intro hall
  have hrun : machine.run (start .new 2) overlookedRun =
      machine.run afterHeadset overlookedRun.tail := by
    rw [overlookedRun, StepMachine.run_cons, step_headset]
    rfl
  have hfound : (none : Option ScannedDevice) = some headset := hall overlookedRun _ hrun rfl
  cases hfound

end DiscoveryLoop

end Esp32A2dpPlayer
