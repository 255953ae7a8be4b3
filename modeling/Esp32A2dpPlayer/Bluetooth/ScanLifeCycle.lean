import Esp32A2dpPlayer.Bluetooth.Discovery

/-!
# The life cycle of scans

Any number of scans, one after the other: `gap_start_discovery` and `gap_cancel_discovery` on the
application's task, `bt_app_gap_cb` on the task of the Bluetooth stack, and whoever holds a
receiver. The slot's mutex makes a call or a callback **one step at its critical section**; what
a callback does before it takes the lock touches nothing that is shared.

A history of what happened stands beside the state, newest event first. Of the slot it keeps only
which channel a STOPPED callback found in it and closed. Which scan is on, which results belong to
it and which receiver obtained what are read off the order of the events.

## Main results

* `scan_life_cycle`: after every run in which the stack reports no scan stopped twice and no
  broadcast has failed, the slot is what the history says. The scans are numbered as they start,
  the STOPPED of scan `k` closes channel `k` and no other, and a receiver obtains results of its
  own scan only.

## What the proof rests on

`Move` is everything a step can do, and `Orderly` relates the slot, the channels and the history.
Each operation has its own lemma. Two facts carry them: a scan stops before the next one starts,
so counting STOPPED callbacks tells the channels apart, and the receiver in the slot keeps the
channel of a live scan open whatever the other receivers do.
-/

namespace Esp32A2dpPlayer

/-- What happens at the critical sections of a run. -/
inductive ScanEvent where
  /-- `gap_start_discovery` returned this receiver. -/
  | started (r : DiscoveryReceiver)
  /-- `gap_start_discovery` returned an error. -/
  | refused (e : GapError)
  /-- `gap_cancel_discovery` returned. -/
  | cancelled (res : Except GapError Unit)
  /-- A DISC_RES callback came as far as the slot with this device. -/
  | result (dev : ScannedDevice)
  /-- A DISCOVERY_STOPPED callback, and the channel that it closed. -/
  | stopped (chan : Option ℕ)
  /-- A receiver obtained a device. -/
  | obtained (r : DiscoveryReceiver) (dev : ScannedDevice)

/-- The scans of a run. -/
structure ScanLife where
  discovery : Discovery
  /-- The receivers that callers hold. -/
  receivers : List DiscoveryReceiver
  /-- What has happened, newest first. -/
  history : List ScanEvent

/-- The steps of the two tasks and of the holders of receivers. -/
inductive ScanLifeAction where
  /-- `gap_start_discovery`, where `esp_bt_gap_start_discovery` returns `ret` if called. -/
  | start (ret : Except Int32 Unit)
  /-- `gap_cancel_discovery`, where `esp_bt_gap_cancel_discovery` returns `ret` if called. -/
  | cancel (ret : Except Int32 Unit)
  | gap (e : GapEvent)
  | recv (r : DiscoveryReceiver)
  | drop (r : DiscoveryReceiver)

namespace ScanLife

/-! ### Reading a history -/

/-- The channel of the latest successful start, unless a STOPPED has been processed since. -/
@[simp] def live : List ScanEvent → Option ℕ
  | [] => none
  | .started r :: _ => some r.channel
  | .stopped _ :: _ => none
  | _ :: h => live h

/-- What the successful starts returned, in order. -/
@[simp] def starts : List ScanEvent → List DiscoveryReceiver
  | [] => []
  | .started r :: h => starts h ++ [r]
  | _ :: h => starts h

/-- How many STOPPED callbacks have been processed. -/
@[simp] def stops : List ScanEvent → ℕ
  | [] => 0
  | .stopped _ :: h => stops h + 1
  | _ :: h => stops h

/-- The channels that the STOPPED callbacks closed, in order. -/
@[simp] def closes : List ScanEvent → List ℕ
  | [] => []
  | .stopped chan :: h => closes h ++ chan.toList
  | _ :: h => closes h

/-- The results handled after the start that made channel `k` and before the next STOPPED. -/
@[simp] def results (k : ℕ) : List ScanEvent → List ScannedDevice
  | [] => []
  | .result dev :: h => if live h = some k then results k h ++ [dev] else results k h
  | _ :: h => results k h

/-- What receiver `r` has obtained, in order. -/
@[simp] def obtained (r : DiscoveryReceiver) : List ScanEvent → List ScannedDevice
  | [] => []
  | .obtained r' dev :: h => if r' = r then obtained r h ++ [dev] else obtained r h
  | _ :: h => obtained r h

/-! ### The machine -/

/-- What a callback adds to the history. -/
def callbackEvents (d : Discovery) : GapEvent → List ScanEvent
  | .discRes bda props => ((scannedDevice bda props).map ScanEvent.result).toList
  | .discStateChanged .stopped => [.stopped d.discovery]
  | .discStateChanged _ => []

/-- One step of a program that has not panicked. -/
def turn (s : ScanLife) : ScanLifeAction → Option ScanLife
  | .start ret =>
    match s.discovery.gapStartDiscovery ret with
    | (.ok r, d) => some ⟨d, r :: s.receivers, .started r :: s.history⟩
    | (.error e, d) => some ⟨d, s.receivers, .refused e :: s.history⟩
  | .cancel ret =>
    some { s with history := .cancelled (s.discovery.gapCancelDiscovery ret) :: s.history }
  | .gap e =>
    some { s with
      discovery := s.discovery.btAppGapCb e
      history := callbackEvents s.discovery e ++ s.history }
  | .recv r =>
    if r ∈ s.receivers then
      match s.discovery.recv r with
      | some (.ok dev, d) => some { s with discovery := d, history := .obtained r dev :: s.history }
      | some (.error _, d) => some { s with discovery := d }
      | none => none
    else none
  | .drop r =>
    if r ∈ s.receivers then
      some { s with
        discovery := { s.discovery with
          channels := Function.update s.discovery.channels r.channel
            ((s.discovery.channels r.channel).dropReceiver r.index) }
        receivers := s.receivers.filter (· ≠ r) }
    else none

/-- One step; a panic is the end of the program. -/
def step (s : ScanLife) (a : ScanLifeAction) : Option ScanLife :=
  if s.discovery.panic = none then s.turn a else none

/-- The scans of a run as a machine. -/
def machine : StepMachine ScanLife ScanLifeAction := ⟨step⟩

/-- No scan has been started. -/
def new : ScanLife := ⟨.new, [], []⟩

/-- The stack reports a scan stopped at most once: each STOPPED has a start of its own. -/
def StackOk (s : ScanLife) (a : ScanLifeAction) : Prop :=
  a = .gap (.discStateChanged .stopped) → stops s.history < (starts s.history).length

theorem step_eq_some_iff {s t : ScanLife} {a : ScanLifeAction} :
    s.step a = some t ↔ s.discovery.panic = none ∧ s.turn a = some t := by
  rw [step]
  split_ifs with h <;> simp [h]

/-- Everything a step can do. -/
inductive Move (s : ScanLife) : ScanLifeAction → ScanLife → Prop
  | started {ret : Except Int32 Unit} {r : DiscoveryReceiver} {d : Discovery}
      (h : s.discovery.gapStartDiscovery ret = (.ok r, d)) :
      Move s (.start ret) ⟨d, r :: s.receivers, .started r :: s.history⟩
  | refused {ret : Except Int32 Unit} (e : GapError) :
      Move s (.start ret) { s with history := .refused e :: s.history }
  | cancelled (ret : Except Int32 Unit) :
      Move s (.cancel ret) { s with
        history := .cancelled (s.discovery.gapCancelDiscovery ret) :: s.history }
  | callback (e : GapEvent) : Move s (.gap e) { s with
      discovery := s.discovery.btAppGapCb e
      history := callbackEvents s.discovery e ++ s.history }
  | obtained {r : DiscoveryReceiver} {dev : ScannedDevice} {c : BroadcastChannel ScannedDevice}
      (hr : r ∈ s.receivers)
      (hc : (s.discovery.channels r.channel).recv r.index = some (.ok dev, c)) :
      Move s (.recv r) { s with
        discovery := { s.discovery with
          channels := Function.update s.discovery.channels r.channel c }
        history := .obtained r dev :: s.history }
  /-- `recv` says that the channel is closed. -/
  | closed {r : DiscoveryReceiver} : Move s (.recv r) s
  | dropped {r : DiscoveryReceiver} (hr : r ∈ s.receivers) : Move s (.drop r) { s with
      discovery := { s.discovery with
        channels := Function.update s.discovery.channels r.channel
          ((s.discovery.channels r.channel).dropReceiver r.index) }
      receivers := s.receivers.filter (· ≠ r) }

theorem move_of_step {s t : ScanLife} {a : ScanLifeAction} (hstep : s.step a = some t) :
    Move s a t := by
  obtain ⟨-, hturn⟩ := step_eq_some_iff.1 hstep
  cases a with
  | start ret =>
    rcases hstart : s.discovery.gapStartDiscovery ret with ⟨e | r, d⟩
    · obtain ⟨rfl, -⟩ := Discovery.gapStartDiscovery_error hstart
      simp only [turn, hstart, Option.some.injEq] at hturn
      subst hturn
      exact .refused e
    · simp only [turn, hstart, Option.some.injEq] at hturn
      subst hturn
      exact .started hstart
  | cancel ret =>
    cases hturn
    exact .cancelled _
  | gap e =>
    cases hturn
    exact .callback e
  | recv r =>
    simp only [turn] at hturn
    split_ifs at hturn with hr
    rcases hc : (s.discovery.channels r.channel).recv r.index with - | ⟨err | dev, c⟩
    · simp [Discovery.recv_eq_none hc] at hturn
    · obtain ⟨p, -, ⟨m, hm, -⟩ | ⟨-, -, -, rfl⟩⟩ := BroadcastChannel.recv_cases hc
      · cases hm
      · simp only [Discovery.recv_eq_some hc, Function.update_eq_self, Option.some.injEq] at hturn
        subst hturn
        exact .closed
    · simp only [Discovery.recv_eq_some hc, Option.some.injEq] at hturn
      subst hturn
      exact .obtained hr hc
  | drop r =>
    simp only [turn] at hturn
    split_ifs at hturn with hr
    cases hturn
    exact .dropped hr

/-! ### The invariant -/

/-- Channel `k` is what the history says of scan `k`. -/
structure ChannelOrderly (next : ℕ) (rs : List DiscoveryReceiver) (h : List ScanEvent) (k : ℕ)
    (c : BroadcastChannel ScannedDevice) : Prop where
  closed : k < next → (c.closed = true ↔ k < stops h)
  sent : c.sent = results k h
  unborn : next ≤ k → results k h = []
  /-- The receiver in the slot has received nothing. -/
  first : live h = some k → c.position 0 = some 0
  caller : ⟨k, 1⟩ ∈ rs → c.position 1 = some (obtained ⟨k, 1⟩ h).length
  delivered : obtained ⟨k, 1⟩ h <+: results k h

/-- The slot and the channels are what the history says. -/
structure Orderly (d : Discovery) (rs : List DiscoveryReceiver) (h : List ScanEvent) : Prop where
  slot : d.discovery = live h
  numbered : starts h = (List.range d.nextChannel).map fun k ↦ ⟨k, 1⟩
  closing : closes h = List.range (stops h)
  idle : live h = none → d.nextChannel = stops h
  scanning : ∀ k, live h = some k → k = stops h ∧ d.nextChannel = stops h + 1
  held : ∀ r ∈ rs, r.channel < d.nextChannel ∧ r.index = 1
  channel : ∀ k, ChannelOrderly d.nextChannel rs h k (d.channels k)

namespace Orderly

variable {d d' : Discovery} {rs : List DiscoveryReceiver} {h : List ScanEvent} {k : ℕ}
  {r : DiscoveryReceiver} {dev : ScannedDevice} {c : BroadcastChannel ScannedDevice}

theorem new : Orderly .new [] [] where
  slot := rfl
  numbered := rfl
  closing := rfl
  idle _ := rfl
  scanning := nofun
  held := nofun
  channel _ := ⟨nofun, rfl, fun _ ↦ rfl, nofun, nofun, List.prefix_rfl⟩

theorem lt_nextChannel (ho : Orderly d rs h) (hlive : live h = some k) : k < d.nextChannel := by
  obtain ⟨rfl, hnext⟩ := ho.scanning k hlive
  exact hnext ▸ Nat.lt_succ_self _

/-- **A successful start.** -/
theorem start (ho : Orderly d rs h) (hslot : d.discovery = none) :
    Orderly (d.openChannel 2).2 ((d.openChannel 2).1 :: rs)
      (.started (d.openChannel 2).1 :: h) := by
  have hstops : d.nextChannel = stops h := ho.idle (ho.slot ▸ hslot)
  refine ⟨rfl, ?_, ho.closing, fun hnone ↦ absurd hnone (Option.some_ne_none _), ?_, ?_, ?_⟩
  · simp [ho.numbered, Discovery.openChannel, List.range_succ]
  · rintro k hk
    obtain rfl : d.nextChannel = k := Option.some.inj hk
    exact ⟨hstops, congrArg (· + 1) hstops⟩
  · intro r hr
    rcases List.mem_cons.1 hr with rfl | hr
    · exact ⟨Nat.lt_succ_self _, rfl⟩
    · exact ⟨Nat.lt_succ_of_lt (ho.held r hr).1, (ho.held r hr).2⟩
  · refine (Function.forall_update_iff d.channels
      (ChannelOrderly (d.nextChannel + 1) _ (.started ⟨d.nextChannel, 1⟩ :: h))).2 ⟨?_, ?_⟩
    · have hnew := ho.channel d.nextChannel
      have hresults : results d.nextChannel h = [] := hnew.unborn le_rfl
      have hobtained : obtained ⟨d.nextChannel, 1⟩ h = [] :=
        List.prefix_nil.1 (hresults ▸ hnew.delivered)
      refine ⟨fun _ ↦ ?_, hresults.symm, fun _ ↦ hresults, fun _ ↦ rfl, fun _ ↦ ?_, hnew.delivered⟩
      · simp [BroadcastChannel.cloneReceiver, BroadcastChannel.broadcast, hstops]
      · rw [obtained, hobtained]
        · rfl
        · simp
    · intro k hk
      have hch := ho.channel k
      refine ⟨fun hlt ↦ hch.closed (by omega), hch.sent, fun hle ↦ hch.unborn (by omega), ?_, ?_,
        hch.delivered⟩
      · exact fun hlive ↦ absurd (Option.some.inj hlive).symm hk
      · intro hr
        exact hch.caller ((List.mem_cons.1 hr).resolve_left fun heq ↦
          hk (DiscoveryReceiver.mk.inj heq).1)

/-- A message in a live channel. -/
theorem send (ho : Orderly d rs h) (hslot : d.discovery = some k)
    (hc : (d.channels k).tryBroadcast dev = .ok c) :
    Orderly { d with channels := Function.update d.channels k c } rs (.result dev :: h) := by
  have hlive : live h = some k := ho.slot ▸ hslot
  obtain ⟨hsent, -, hclosed, -⟩ := BroadcastChannel.sent_of_tryBroadcast hc
  have hpos (i : ℕ) := BroadcastChannel.position_of_tryBroadcast (i := i) hc
  refine ⟨ho.slot, ho.numbered, ho.closing, ho.idle, ho.scanning, ho.held, ?_⟩
  refine (Function.forall_update_iff d.channels
    (ChannelOrderly d.nextChannel rs (.result dev :: h))).2 ⟨?_, ?_⟩
  · have hch := ho.channel k
    have hresults : results k (.result dev :: h) = results k h ++ [dev] := by
      rw [results, if_pos hlive]
    refine ⟨hclosed ▸ hch.closed, ?_, fun hle ↦ ?_, fun _ ↦ ?_, fun hr ↦ ?_, ?_⟩
    · rw [hsent, hch.sent, hresults]
    · exact absurd hle (Nat.not_le_of_lt (ho.lt_nextChannel hlive))
    · rw [hpos, hch.first hlive]
    · rw [hpos, hch.caller hr]
      rfl
    · exact hresults ▸ hch.delivered.trans (List.prefix_append _ _)
  · intro j hj
    have hch := ho.channel j
    have hresults : results j (.result dev :: h) = results j h := by
      rw [results, hlive, if_neg fun heq ↦ hj (Option.some.inj heq).symm]
    exact ⟨hch.closed, hresults ▸ hch.sent, hresults ▸ hch.unborn, hch.first, hch.caller,
      hresults ▸ hch.delivered⟩

/-- A call that fails, and one that does not touch the slot. -/
theorem leave {ev : ScanEvent} (ho : Orderly d rs h)
    (hev : (∃ e, ev = .refused e) ∨ ∃ res, ev = .cancelled res) : Orderly d rs (ev :: h) := by
  obtain ⟨e, rfl⟩ | ⟨res, rfl⟩ := hev
  all_goals
    refine ⟨ho.slot, ho.numbered, ho.closing, ho.idle, ho.scanning, ho.held, fun k ↦ ?_⟩
    have hch := ho.channel k
    exact ⟨hch.closed, hch.sent, hch.unborn, hch.first, hch.caller, hch.delivered⟩

/-- A result that comes when no scan is on. -/
theorem ignore (ho : Orderly d rs h) (hslot : d.discovery = none) :
    Orderly d rs (.result dev :: h) := by
  have hlive : live h = none := ho.slot ▸ hslot
  have hresults (j : ℕ) : results j (.result dev :: h) = results j h := by
    rw [results, hlive, if_neg nofun]
  refine ⟨ho.slot, ho.numbered, ho.closing, ho.idle, ho.scanning, ho.held, fun j ↦ ?_⟩
  have hch := ho.channel j
  exact ⟨hch.closed, hresults j ▸ hch.sent, hresults j ▸ hch.unborn, hch.first, hch.caller,
    hresults j ▸ hch.delivered⟩

/-- **The end of a scan.** -/
theorem stop (ho : Orderly d rs h) (hslot : d.discovery = some k) :
    Orderly { d with
      discovery := none
      channels := Function.update d.channels k ((d.channels k).close.dropReceiver 0) } rs
      (.stopped (some k) :: h) := by
  have hlive : live h = some k := ho.slot ▸ hslot
  obtain ⟨hk, hnext⟩ := ho.scanning k hlive
  refine ⟨rfl, ho.numbered, ?_, fun _ ↦ hnext, nofun, ho.held, ?_⟩
  · rw [closes, stops, ho.closing, List.range_succ, hk]
    rfl
  refine (Function.forall_update_iff d.channels
    (ChannelOrderly d.nextChannel rs (.stopped (some k) :: h))).2 ⟨?_, ?_⟩
  · have hch := ho.channel k
    refine ⟨fun _ ↦ ?_, hch.sent, hch.unborn, nofun, fun hr ↦ ?_, hch.delivered⟩
    · rw [BroadcastChannel.dropReceiver_closed BroadcastChannel.close_closed, stops, hk]
      exact iff_of_true rfl (Nat.lt_succ_self _)
    · rw [BroadcastChannel.dropReceiver_position_of_ne Nat.one_ne_zero,
        BroadcastChannel.close_position, hch.caller hr]
      rfl
  · intro j hj
    have hch := ho.channel j
    refine ⟨fun hlt ↦ ?_, hch.sent, hch.unborn, nofun, hch.caller, hch.delivered⟩
    rw [hch.closed hlt, stops]
    omega

/-- A receive gives the next result of the receiver's own scan. -/
theorem recv (ho : Orderly d rs h) (hr : r ∈ rs)
    (hrecv : (d.channels r.channel).recv r.index = some (.ok dev, c)) :
    Orderly { d with channels := Function.update d.channels r.channel c } rs
      (.obtained r dev :: h) := by
  obtain ⟨k, i⟩ := r
  obtain ⟨-, rfl⟩ : k < d.nextChannel ∧ i = 1 := ho.held _ hr
  obtain ⟨p, hp, ⟨m, hm, hget, hsent, hclosed, hpos⟩ | ⟨hm, -⟩⟩ :=
    BroadcastChannel.recv_cases hrecv
  · obtain rfl : dev = m := Except.ok.inj hm
    refine ⟨ho.slot, ho.numbered, ho.closing, ho.idle, ho.scanning, ho.held, ?_⟩
    refine (Function.forall_update_iff d.channels
      (ChannelOrderly d.nextChannel rs (.obtained ⟨k, 1⟩ dev :: h))).2 ⟨?_, ?_⟩
    · have hch := ho.channel k
      have hobtained : obtained ⟨k, 1⟩ (.obtained ⟨k, 1⟩ dev :: h) =
          obtained ⟨k, 1⟩ h ++ [dev] := by
        rw [obtained, if_pos rfl]
      obtain rfl : (obtained ⟨k, 1⟩ h).length = p :=
        Option.some.inj ((hch.caller hr).symm.trans hp)
      refine ⟨hclosed ▸ hch.closed, hsent ▸ hch.sent, hch.unborn, fun hlive ↦ ?_, fun _ ↦ ?_, ?_⟩
      · rw [BroadcastChannel.position_set_of_ne Nat.zero_ne_one hpos]
        exact hch.first hlive
      · rw [BroadcastChannel.position_set_self hp hpos, hobtained, List.length_append,
          List.length_singleton]
      · obtain ⟨hlt, hdev⟩ := List.getElem?_eq_some_iff.1 (hch.sent ▸ hget)
        rw [hobtained, ← hdev]
        exact List.concat_get_prefix hch.delivered hlt
    · intro j hj
      have hch := ho.channel j
      have hobtained : obtained ⟨j, 1⟩ (.obtained ⟨k, 1⟩ dev :: h) = obtained ⟨j, 1⟩ h := by
        rw [obtained, if_neg fun heq ↦ hj (DiscoveryReceiver.mk.inj heq).1.symm]
      exact ⟨hch.closed, hch.sent, hch.unborn, hch.first, hobtained ▸ hch.caller,
        hobtained ▸ hch.delivered⟩
  · cases hm

/-- **A caller drops its receiver.** This does not close the channel: a live one has its
receiver in the slot, the others are closed. -/
theorem drop (ho : Orderly d rs h) (hr : r ∈ rs) :
    Orderly { d with
      channels := Function.update d.channels r.channel
        ((d.channels r.channel).dropReceiver r.index) } (rs.filter (· ≠ r)) h := by
  obtain ⟨k, i⟩ := r
  obtain ⟨hlt, rfl⟩ : k < d.nextChannel ∧ i = 1 := ho.held _ hr
  refine ⟨ho.slot, ho.numbered, ho.closing, ho.idle, ho.scanning,
    fun r' hr' ↦ ho.held r' (List.mem_of_mem_filter hr'), ?_⟩
  refine (Function.forall_update_iff d.channels
    (ChannelOrderly d.nextChannel (rs.filter (· ≠ ⟨k, 1⟩)) h)).2 ⟨?_, ?_⟩
  · have hch := ho.channel k
    refine ⟨fun _ ↦ ?_, hch.sent, hch.unborn, fun hlive ↦ ?_, ?_, hch.delivered⟩
    · by_cases hlive : live h = some k
      · rw [BroadcastChannel.dropReceiver_closed_eq Nat.zero_ne_one (hch.first hlive),
          hch.closed hlt]
      · have hstopped : k < stops h := by
          rcases hs : live h with - | j
          · exact ho.idle hs ▸ hlt
          · obtain ⟨rfl, hnext⟩ := ho.scanning j hs
            rw [hnext] at hlt
            exact lt_of_le_of_ne (Nat.le_of_lt_succ hlt) fun heq ↦ hlive (heq ▸ hs)
        exact iff_of_true (BroadcastChannel.dropReceiver_closed ((hch.closed hlt).2 hstopped))
          hstopped
    · rw [BroadcastChannel.dropReceiver_position_of_ne Nat.zero_ne_one, hch.first hlive]
    · simp
  · intro j hj
    have hch := ho.channel j
    exact ⟨hch.closed, hch.sent, hch.unborn, hch.first,
      fun hr' ↦ hch.caller (List.mem_of_mem_filter hr'), hch.delivered⟩

/-- The device of a result, on its way to the slot. -/
theorem broadcastDevice (ho : Orderly d rs h)
    (hsend : ∀ e, (d.broadcastDevice dev).panic ≠ some (.tryBroadcast e)) :
    Orderly (d.broadcastDevice dev) rs (.result dev :: h) := by
  rcases hslot : d.discovery with - | k
  · rw [Discovery.broadcastDevice, hslot]
    exact ho.ignore hslot
  · rcases hc : (d.channels k).tryBroadcast dev with e | c
    · exact absurd (by simp [Discovery.broadcastDevice, hslot, hc]) (hsend e)
    · simp only [Discovery.broadcastDevice, hslot, hc]
      exact hslot ▸ ho.send hslot hc

/-- What is true of the slot and the channels does not depend on a panic. -/
theorem panic (ho : Orderly d rs h) (p : Option GapPanic) :
    Orderly { d with panic := p } rs h :=
  ⟨ho.slot, ho.numbered, ho.closing, ho.idle, ho.scanning, ho.held, ho.channel⟩

/-- **A callback.** -/
theorem btAppGapCb {e : GapEvent} (ho : Orderly d rs h)
    (hstack : e = .discStateChanged .stopped → stops h < (starts h).length)
    (hsend : ∀ err, (d.btAppGapCb e).panic ≠ some (.tryBroadcast err)) :
    Orderly (d.btAppGapCb e) rs (callbackEvents d e ++ h) := by
  rcases e with ⟨bda, props⟩ | - | - | code
  · rcases hdev : scannedDevice bda props with - | dev
    · simp only [Discovery.btAppGapCb, callbackEvents, hdev]
      exact ho.panic _
    · simp only [Discovery.btAppGapCb, hdev] at hsend
      simp only [Discovery.btAppGapCb, callbackEvents, hdev]
      exact ho.broadcastDevice hsend
  · rcases hslot : d.discovery with - | k
    · have hlt := hstack rfl
      rw [ho.numbered, List.length_map, List.length_range, ho.idle (ho.slot ▸ hslot)] at hlt
      exact absurd hlt (Nat.lt_irrefl _)
    · simp only [Discovery.btAppGapCb, callbackEvents, hslot]
      exact ho.stop hslot
  · exact ho
  · exact ho.panic _

end Orderly

variable {s t : ScanLife} {a : ScanLifeAction}

/-- **The step lemma.** -/
theorem orderly_of_step (ho : Orderly s.discovery s.receivers s.history) (hstack : StackOk s a)
    (hstep : s.step a = some t) (hsend : ∀ e, t.discovery.panic ≠ some (.tryBroadcast e)) :
    Orderly t.discovery t.receivers t.history := by
  cases move_of_step hstep with
  | started h =>
    obtain ⟨hslot, -, hopen⟩ := Discovery.gapStartDiscovery_eq_ok_iff.1 h
    have hstarted := ho.start hslot
    rwa [hopen] at hstarted
  | refused e => exact ho.leave (Or.inl ⟨e, rfl⟩)
  | cancelled ret => exact ho.leave (Or.inr ⟨_, rfl⟩)
  | callback e => exact ho.btAppGapCb (fun he ↦ hstack (congrArg _ he)) hsend
  | obtained hr hc => exact ho.recv hr hc
  | closed => exact ho
  | dropped hr => exact ho.drop hr

/-- **The run lemma.** -/
theorem orderly_of_run {as : List ScanLifeAction} (hstack : machine.AllSteps StackOk new as)
    (hrun : machine.run new as = some s)
    (hsend : ∀ e, s.discovery.panic ≠ some (.tryBroadcast e)) :
    Orderly s.discovery s.receivers s.history := by
  refine machine.run_invariant_of_allSteps (I := fun _ s ↦
    (∀ e, s.discovery.panic ≠ some (.tryBroadcast e)) →
      Orderly s.discovery s.receivers s.history) (fun _ ↦ .new) ?_ hstack hrun hsend
  intro as s a t _ ho hstack hstep hsend
  have hpanic : s.discovery.panic = none := (step_eq_some_iff.1 hstep).1
  exact orderly_of_step (ho fun e ↦ hpanic ▸ nofun) hstack hstep hsend

/-! ### The life cycle -/

/-- A step other than a STOPPED callback leaves a live channel in the slot. -/
theorem slot_of_step {k : ℕ} (hstep : s.step a = some t) (hslot : s.discovery.discovery = some k)
    (ha : a ≠ .gap (.discStateChanged .stopped)) : t.discovery.discovery = some k := by
  cases move_of_step hstep with
  | started h =>
    obtain ⟨hnone, -⟩ := Discovery.gapStartDiscovery_eq_ok_iff.1 h
    rw [hslot] at hnone
    cases hnone
  | callback e =>
    obtain ⟨⟨heq, -⟩, -⟩ | ⟨chan, dev, c, -, -, -, heq⟩ | ⟨chan, -, rfl, -⟩ :=
      s.discovery.btAppGapCb_cases e
    · exact heq.trans hslot
    · simpa only [heq] using hslot
    · exact absurd rfl ha
  | refused | cancelled | obtained | closed | dropped => exact hslot

/-- The slot, the two calls and the channels follow the scans. -/
structure LifeCycle (s : ScanLife) : Prop where
  /-- The slot is full iff the latest successful start has not had its STOPPED processed. -/
  slot : s.discovery.discovery = live s.history
  start_ok : ∀ ret, (∃ r d, s.discovery.gapStartDiscovery ret = (.ok r, d)) ↔
    s.discovery.discovery = none ∧ ret = .ok ()
  start_error : ∀ ret e d, s.discovery.gapStartDiscovery ret = (.error e, d) → d = s.discovery
  cancel : ∀ ret t, s.step (.cancel ret) = some t → t.discovery = s.discovery
  cancel_ok : ∀ ret, s.discovery.gapCancelDiscovery ret = .ok () ↔
    s.discovery.discovery.isSome ∧ ret = .ok ()
  /-- No live channel is ever replaced. -/
  kept : ∀ a t k, s.step a = some t → s.discovery.discovery = some k →
    a ≠ .gap (.discStateChanged .stopped) → t.discovery.discovery = some k
  /-- Each start makes a channel of its own and returns a receiver of it. -/
  numbered : starts s.history = (List.range (starts s.history).length).map fun k ↦ ⟨k, 1⟩
  /-- Each scan but the live one has had its STOPPED, so it had it before the next start. -/
  paired : (starts s.history).length = stops s.history + (live s.history).toList.length
  /-- Each STOPPED closed the channel of its own scan. -/
  closes : closes s.history = List.range (stops s.history)
  /-- Nothing else closes a channel. -/
  closed : ∀ k < (starts s.history).length,
    (s.discovery.channels k).closed = true ↔ k < stops s.history
  sent : ∀ k < (starts s.history).length, (s.discovery.channels k).sent = results k s.history
  obtained : ∀ r ∈ starts s.history, obtained r s.history <+: results r.channel s.history

/-- **The life cycle of scans.** It holds in every state that a run reaches in which the stack
reports each scan stopped at most once and no broadcast has failed, whatever the driver answers
and however calls, callbacks and receives interleave. -/
theorem scan_life_cycle (as : List ScanLifeAction) (s : ScanLife)
    (hstack : machine.AllSteps StackOk new as) (hrun : machine.run new as = some s)
    (hsend : ∀ e, s.discovery.panic ≠ some (.tryBroadcast e)) : LifeCycle s := by
  have ho := orderly_of_run hstack hrun hsend
  have hlen : (starts s.history).length = s.discovery.nextChannel := by
    rw [ho.numbered, List.length_map, List.length_range]
  refine ⟨ho.slot, fun ret ↦ ⟨?_, ?_⟩, fun ret e d h ↦ (Discovery.gapStartDiscovery_error h).1, ?_,
    fun _ ↦ Discovery.gapCancelDiscovery_eq_ok_iff,
    fun a t k hstep hslot ha ↦ slot_of_step hstep hslot ha, ?_, ?_, ho.closing, ?_, ?_, ?_⟩
  · rintro ⟨r, d, h⟩
    obtain ⟨hslot, hret, -⟩ := Discovery.gapStartDiscovery_eq_ok_iff.1 h
    exact ⟨hslot, hret⟩
  · rintro ⟨hslot, rfl⟩
    exact ⟨_, _, Discovery.gapStartDiscovery_eq_ok_iff.2 ⟨hslot, rfl, rfl⟩⟩
  · intro ret t hstep
    cases move_of_step hstep with
    | cancelled => rfl
  · rw [hlen]
    exact ho.numbered
  · rw [hlen]
    rcases hlive : live s.history with - | k
    · exact ho.idle hlive
    · exact (ho.scanning k hlive).2
  · exact fun k hk ↦ (ho.channel k).closed (hlen ▸ hk)
  · exact fun k _ ↦ (ho.channel k).sent
  · intro r hr
    rw [ho.numbered] at hr
    obtain ⟨k, -, rfl⟩ := List.mem_map.1 hr
    exact (ho.channel k).delivered

/-- A scan whose end races with a second start, and the scan after it. -/
def twoScans : List ScanLifeAction :=
  [.start (.error 1), .start (.ok ()), .gap (.discRes (Vector.replicate 6 1) []),
    .cancel (.ok ()), .start (.ok ()), .recv ⟨0, 1⟩, .gap (.discStateChanged .stopped),
    .start (.ok ()), .gap (.discRes (Vector.replicate 6 2) []), .recv ⟨0, 1⟩, .recv ⟨1, 1⟩]

theorem scan_life_cycle_twoScans :
    ∃ s, machine.run new twoScans = some s ∧ LifeCycle s ∧ stops s.history = 1 := by
  refine ⟨_, rfl, scan_life_cycle twoScans _ ?_ rfl nofun, rfl⟩
  refine .cons nofun rfl <| .cons nofun rfl <| .cons nofun rfl <| .cons nofun rfl <|
    .cons nofun rfl <| .cons nofun rfl <| .cons ?_ rfl <| .cons nofun rfl <|
    .cons nofun rfl <| .cons nofun rfl <| .cons nofun rfl .nil
  exact fun _ ↦ Nat.one_pos

end ScanLife

end Esp32A2dpPlayer
