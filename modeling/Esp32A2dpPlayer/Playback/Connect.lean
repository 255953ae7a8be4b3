import Esp32A2dpPlayer.Playback.DiscoveryLoop
import Esp32A2dpPlayer.StateMachine.OwnLock

/-!
# From the search to the connection

What Playback does with what its discovery loop has received. The loop keeps the first suitable
device and ends; then `execute` logs the name of the device, cancels the scan and connects to
its address, or goes on to `deinit` if there is none.

The name is unwrapped, and a device need not have one: a class and a list of UUIDs come in
properties of their own. So Playback connects to the right device exactly if the first suitable
one has a name (`connects_iff`).
-/

namespace Esp32A2dpPlayer

namespace DiscoveryLoop

variable {s t : DiscoveryLoop} {as : List LoopAction} {d : Discovery} {capacity : ℕ}

/-- The loop has all it needs to end: it has received a suitable device, or the channel is
closed and no `recv` is about to return another device. -/
def Decided (s : DiscoveryLoop) : Prop :=
  (∃ dev ∈ s.received, suitable dev) ∨
    (s.channel.closed = true ∧ (s.pc = .recv → s.pending = []))

/-! ### The loop panics at nothing but an unassigned class -/

/-- A panic of the loop is the panic of printing a device it has received. -/
theorem debug_eq_none_of_panicked (h : machine.run (start d capacity) as = some s)
    {p : LoopPanic} (hpc : s.pc = .panicked p) : ∃ dev ∈ s.received, dev.debug = none := by
  revert p
  refine machine.run_invariant (I := fun _ s ↦ ∀ {p : LoopPanic}, s.pc = .panicked p →
    ∃ dev ∈ s.received, dev.debug = none) (by simp [start]) ?_ h
  intro as s a t hrun hs ht p hpc
  have hok := (inv_of_run hrun).loopOk
  cases a with
  | gap e =>
    -- a callback leaves the loop where it is, and does not run after its panic
    obtain rfl := step_gap_cases ht
    have hpc : s.pc = .panicked p := hpc
    simp only [machine, step, hpc] at ht
    split at ht <;> cases ht
  | loop =>
    have hstep := step_loop_cases ht
    unfold loopStep at hstep
    split at hstep
    next => split at hstep <;> cases hstep <;> cases hpc
    next => split at hstep <;> cases hstep <;> cases hpc
    next dev hdev =>
      split at hstep
      next hdebug =>
        cases hstep
        simp only [LoopOk, hdev] at hok
        obtain ⟨-, devs, hreceived, -⟩ := hok
        have hmem : dev ∈ s.received := by simp [hreceived]
        exact ⟨dev, hmem, hdebug⟩
      next => split at hstep <;> cases hstep <;> cases hpc
    next herror =>
      simp only [LoopOk, herror] at hok
      simp only [hok.2.2.1, Bool.not_true, Bool.false_eq_true, ↓reduceIte] at hstep
      cases hstep
      cases hpc
    next => cases hstep
    next => cases hstep

/-! ### A decided loop ends -/

theorem step_loop_eq (hpanic : s.discovery.panic = none) (hpc : ∀ p, s.pc ≠ .panicked p) :
    machine.step s .loop = s.loopStep := by
  simp only [machine, step, hpanic]

theorem step_test_ended (hpanic : s.discovery.panic = none) (hpc : s.pc = .test)
    (hover : s.found.isSome ∨ s.channel.closed = true) :
    machine.step s .loop = some { s with pc := .ended } := by
  rw [step_loop_eq hpanic (by simp [hpc]), loopStep, hpc]
  refine if_neg fun hgoes ↦ ?_
  obtain ⟨hnone, hopen⟩ : s.found = none ∧ s.channel.closed = false := by simpa using hgoes
  rcases hover with hsome | hclosed
  · simp [hnone] at hsome
  · simp [hopen] at hclosed

/-- `recv` on a closed channel with nothing left in it fails, and changes nothing. -/
theorem step_recv_error {inTime : Prop} (hs : Inv inTime s) (hpanic : s.discovery.panic = none)
    (hpc : s.pc = .recv) (hclosed : s.channel.closed = true) (hpending : s.pending = []) :
    machine.step s .loop = some { s with pc := .error } := by
  have hlen : s.taken = s.channel.sent.length :=
    le_antisymm (BroadcastChannel.le_of_position hs.active) (List.drop_eq_nil_iff.1 hpending)
  have hrecv := BroadcastChannel.recv_of_eq (hlen ▸ hs.active)
  have hchan : Function.update s.discovery.channels s.receiver.channel s.channel =
      s.discovery.channels := Function.update_eq_self ..
  rw [hclosed] at hrecv
  rw [step_loop_eq hpanic (by simp [hpc]), loopStep, hpc]
  simp only [Discovery.recv_eq_some hrecv, hchan]

theorem step_error_test (hpanic : s.discovery.panic = none) (hpc : s.pc = .error)
    (hclosed : s.channel.closed = true) :
    machine.step s .loop = some { s with found := s.found, pc := .test } := by
  rw [step_loop_eq hpanic (by simp [hpc]), loopStep, hpc]
  simp [hclosed]

theorem step_device_test {dev : ScannedDevice} (hpanic : s.discovery.panic = none)
    (hpc : s.pc = .device dev) (hprints : dev.debug.isSome) :
    machine.step s .loop =
      some { s with found := if suitable dev then some dev else s.found, pc := .test } := by
  obtain ⟨text, htext⟩ := Option.isSome_iff_exists.1 hprints
  rw [step_loop_eq hpanic (by simp [hpc]), loopStep, hpc]
  by_cases hsuit : suitable dev <;> simp [htext, hsuit]

/-- From its test a loop that is over ends at once, so it is enough to get there. -/
theorem ends_of_test {n : ℕ} {found : Option ScannedDevice} (hpanic : s.discovery.panic = none)
    (hrun : machine.run s (List.replicate n .loop) = some { s with found := found, pc := .test })
    (hover : found.isSome ∨ s.channel.closed = true) :
    ∃ n t, machine.run s (List.replicate n .loop) = some t ∧ t.pc = .ended ∧
      t.received = s.received := by
  refine ⟨n + 1, { s with found := found, pc := .ended }, ?_, rfl, rfl⟩
  rw [List.replicate_succ', StepMachine.run_concat, hrun, Option.bind_some]
  exact @step_test_ended { s with found := found, pc := .test } hpanic rfl hover

/-- **A decided loop ends** by its own steps, and receives nothing more. -/
theorem ends_of_decided (h : machine.run (start d capacity) as = some s)
    (hpanic : s.discovery.panic = none) (hdebug : ∀ dev ∈ s.received, dev.debug.isSome)
    (hdecided : s.Decided) : ∃ n t, machine.run s (List.replicate n .loop) = some t ∧
      t.pc = .ended ∧ t.received = s.received := by
  have hinv := inv_of_run h
  have hok := hinv.loopOk
  have hno : s.received.find? suitable = none → s.channel.closed = true ∧
      (s.pc = .recv → s.pending = []) := by
    intro hfind
    refine hdecided.resolve_left ?_
    rintro ⟨dev, hmem, hsuit⟩
    exact List.find?_eq_none.1 hfind dev hmem hsuit
  unfold LoopOk at hok
  split at hok
  next hpc =>
    have hrun : machine.run s (List.replicate 0 .loop) =
        some { s with found := s.found, pc := .test } := by rw [← hpc]; rfl
    refine ends_of_test hpanic hrun ?_
    rcases hfound : s.found with - | dev
    · exact .inr (hno (hok.symm.trans hfound)).1
    · exact .inl rfl
  next hpc =>
    obtain ⟨hnone, hfind⟩ := hok
    obtain ⟨hclosed, hpending⟩ := hno hfind
    have hrun : machine.run s (List.replicate 2 .loop) =
        some { s with found := s.found, pc := .test } := by
      simp only [List.replicate_succ, List.replicate_zero, StepMachine.run_cons,
        StepMachine.run_nil, step_recv_error hinv hpanic hpc hclosed (hpending hpc),
        Option.bind_some]
      rw [@step_error_test { s with pc := .error } hpanic rfl hclosed, Option.bind_some]
    exact ends_of_test hpanic hrun (.inr hclosed)
  next dev hpc =>
    obtain ⟨hnone, devs, hreceived, hdevs⟩ := hok
    have hprints : dev.debug.isSome := hdebug dev (by simp [hreceived])
    have hrun : machine.run s (List.replicate 1 .loop) =
        some { s with found := if suitable dev then some dev else s.found, pc := .test } := by
      rw [List.replicate_one, StepMachine.run_cons, step_device_test hpanic hpc hprints]
      rfl
    refine ends_of_test hpanic hrun ?_
    by_cases hsuit : suitable dev
    · simp [hsuit]
    · have hfind : s.received.find? suitable = none := by simp [hreceived, hdevs, hsuit]
      exact .inr (hno hfind).1
  next hpc =>
    obtain ⟨-, -, hclosed, -⟩ := hok
    have hrun : machine.run s (List.replicate 1 .loop) =
        some { s with found := s.found, pc := .test } := by
      rw [List.replicate_one, StepMachine.run_cons, step_error_test hpanic hpc hclosed]
      rfl
    exact ends_of_test hpanic hrun (.inr hclosed)
  next hpc => exact ⟨0, s, rfl, hpc, rfl⟩
  next hpc =>
    obtain ⟨dev, hmem, hnone⟩ := debug_eq_none_of_panicked h hpc
    exact absurd (hdebug dev hmem) (by simp [hnone])
  next => exact hok.elim

end DiscoveryLoop

namespace MainLoop

/-- The execution of Playback that is under way, and nothing after it. -/
def playbackExecute (reentrant : Bool) : StepMachine MainLoop MainAction :=
  ⟨fun s a ↦
    match s.pc with
    | .playback c pc => s.playbackStep reentrant c pc a
    | _ => none⟩

/-- The step is a call of `a2dp_connect`, with this address. -/
def connectCall (s : MainLoop) (_ : MainAction) : Option BDAddr :=
  match s.pc with
  | .playback _ (.connect dev) => some dev.address
  | _ => none

/-- The calls of `a2dp_connect` along a run. -/
def connectCalls (reentrant : Bool) (s : MainLoop) (as : List MainAction) : List BDAddr :=
  (playbackExecute reentrant).outputs connectCall s as

/-- Once the search has ended with `found`, the rest of `execute` calls `a2dp_connect` once, with
the address `target`, whatever the calls before it return; or, without a target, not at all, and
goes on to `deinit`. -/
structure ConnectsTo (reentrant : Bool) (s : MainLoop) (found : Option ScannedDevice)
    (target : Option BDAddr) : Prop where
  only : ∀ as t, (playbackExecute reentrant).run s (.discovered found :: as) = some t →
    connectCalls reentrant s (.discovered found :: as) <+: target.toList
  reaches : ∀ address, target = some address → ∀ cancelRet connectRet,
    ∃ t, (playbackExecute reentrant).run s
        [.discovered found, .run, .call cancelRet, .call connectRet] = some t ∧
      connectCalls reentrant s [.discovered found, .run, .call cancelRet, .call connectRet] =
        [address]
  deinit : target = none → ∃ t c, (playbackExecute reentrant).run s [.discovered found] = some t ∧
    t.pc = .playback c .deinit

/-- The calls of `a2dp_connect` still to come. -/
def toConnect (s : MainLoop) : List BDAddr :=
  match s.pc with
  | .playback _ (.name dev) => [dev.address]
  | .playback _ (.cancel dev) => [dev.address]
  | .playback _ (.connect dev) => [dev.address]
  | _ => []

/-- Past the search of the execution under way. -/
def Searched (s : MainLoop) : Prop :=
  match s.pc with
  | .playback _ .sdInit | .playback _ .preInit | .playback _ .init
  | .playback _ .startDiscovery | .playback _ .discover => False
  | _ => True

variable {s t : MainLoop} {a : MainAction} {reentrant : Bool} {c : ConcreteState Playback}
  {as : List MainAction}

/-- Where there is nothing to connect any more. -/
theorem searched_unwrapTo {ε α : Type} {ret : Except ε α} {pc : MainPc}
    (hsearched : Searched { s with pc }) (hnone : toConnect { s with pc } = []) :
    Searched (s.unwrapTo ret pc) ∧ toConnect (s.unwrapTo ret pc) = [] := by
  rcases ret with e | v
  · exact ⟨trivial, rfl⟩
  · exact ⟨hsearched, hnone⟩

/-- What one step behind the search calls is taken from what is still to come. -/
theorem connectCall_append_toConnect_prefix (hs : Searched s)
    (h : (playbackExecute reentrant).step s a = some t) :
    Searched t ∧ (connectCall s a).toList ++ toConnect t <+: toConnect s := by
  simp only [playbackExecute] at h
  split at h
  next c pc hpc =>
    -- the steps behind the connection, which all end in a call
    have hlate (hcall : connectCall s a = none) (ht : Searched t ∧ toConnect t = []) :
        Searched t ∧ (connectCall s a).toList ++ toConnect t <+: toConnect s := by
      rw [hcall, ht.2]
      exact ⟨ht.1, List.nil_prefix⟩
    simp only [Searched, hpc] at hs
    unfold playbackStep at h
    split at h
    case h_8 dev =>
      simp only [connectCall, toConnect, hpc]
      split at h <;> cases h
      · exact ⟨trivial, List.prefix_rfl⟩
      · exact ⟨trivial, List.nil_prefix⟩
    case h_9 dev ret =>
      simp only [connectCall, toConnect, hpc]
      cases h
      exact ⟨trivial, List.prefix_rfl⟩
    case h_10 dev ret =>
      cases h
      have ht := @searched_unwrapTo s _ _ ret (.playback c .play) trivial rfl
      rw [ht.2]
      simp only [connectCall, toConnect, hpc]
      exact ⟨ht.1, List.prefix_rfl⟩
    case h_11 | h_12 | h_14 =>
      cases h
      exact hlate (by simp [connectCall, hpc]) (searched_unwrapTo trivial rfl)
    case h_13 =>
      split at h <;> cases h
      exact hlate (by simp [connectCall, hpc]) ⟨trivial, rfl⟩
    case h_15 => cases h
    all_goals exact hs.elim
  next => cases h

/-- The calls along a run behind the search are those still to come at its start. -/
theorem connectCalls_prefix (hs : Searched s) (h : (playbackExecute reentrant).run s as = some t) :
    connectCalls reentrant s as <+: toConnect s := by
  have hinv : Searched t ∧ connectCalls reentrant s as ++ toConnect t <+: toConnect s := by
    refine (playbackExecute reentrant).run_invariant (I := fun as t ↦ Searched t ∧
      connectCalls reentrant s as ++ toConnect t <+: toConnect s) ⟨hs, List.prefix_rfl⟩ ?_ h
    intro as u a v hrun ⟨hu, hpre⟩ hv
    obtain ⟨hv', hstep⟩ := connectCall_append_toConnect_prefix hu hv
    refine ⟨hv', List.IsPrefix.trans ?_ hpre⟩
    rw [connectCalls, (playbackExecute reentrant).outputs_concat connectCall hrun,
      List.append_assoc]
    exact (List.prefix_append_right_inj _).2 hstep
  exact (List.prefix_append ..).trans hinv.2

/-! ### From the end of the search -/

/-- The state behind the search. -/
def afterSearch (s : MainLoop) (c : ConcreteState Playback) : Option ScannedDevice → MainLoop
  | some dev => { s with pc := .playback c (.name dev) }
  | none => { s with pc := .playback c .deinit }

theorem step_discovered (hpc : s.pc = .playback c .discover) (found : Option ScannedDevice) :
    (playbackExecute reentrant).step s (.discovered found) = some (s.afterSearch c found) := by
  simp only [playbackExecute, hpc]
  cases found <;> rfl

theorem connectCalls_discovered (hpc : s.pc = .playback c .discover)
    (found : Option ScannedDevice) :
    connectCalls reentrant s (.discovered found :: as) =
      connectCalls reentrant (s.afterSearch c found) as := by
  rw [connectCalls, StepMachine.outputs_cons, step_discovered hpc]
  simp [connectCall, hpc, connectCalls]

theorem toConnect_afterSearch (found : Option ScannedDevice) :
    toConnect (s.afterSearch c found) = (found.map ScannedDevice.address).toList := by
  cases found <;> rfl

theorem searched_afterSearch (found : Option ScannedDevice) : Searched (s.afterSearch c found) := by
  cases found <;> trivial

/-- **Which connection Playback makes.** From the end of its search it connects to the device
found, and to nothing else, exactly if that device has a name. -/
theorem connectsTo_iff (hpc : s.pc = .playback c .discover) (found : Option ScannedDevice) :
    ConnectsTo reentrant s found (found.map ScannedDevice.address) ↔
      ∀ dev, found = some dev → dev.name.isSome := by
  constructor
  · rintro h dev rfl
    obtain ⟨t, hrun, -⟩ := h.reaches dev.address rfl (.ok ()) (.ok ())
    rcases hname : dev.name with - | name
    · -- without a name the step behind the search is a panic
      rw [StepMachine.run_cons, step_discovered hpc] at hrun
      simp [StepMachine.run, afterSearch, playbackExecute, playbackStep, hname] at hrun
    · rfl
  · intro hname
    refine ⟨fun as t hrun ↦ ?_, fun address haddress cancelRet connectRet ↦ ?_, fun hnone ↦ ?_⟩
    · rw [StepMachine.run_cons, step_discovered hpc, Option.bind_some] at hrun
      rw [connectCalls_discovered hpc, ← @toConnect_afterSearch s c]
      exact connectCalls_prefix (searched_afterSearch found) hrun
    · obtain ⟨dev, rfl, rfl⟩ := Option.map_eq_some_iff.1 haddress
      obtain ⟨name, hn⟩ := Option.isSome_iff_exists.1 (hname dev rfl)
      refine ⟨({ s with pc := .playback c (.connect dev) } : MainLoop).unwrapTo connectRet
        (.playback c .play), ?_, ?_⟩
      · rw [StepMachine.run_cons, step_discovered hpc]
        simp only [StepMachine.run, Option.bind_some, afterSearch, playbackExecute, playbackStep,
          hn]
      · rw [connectCalls_discovered hpc]
        simp only [connectCalls, StepMachine.outputs, afterSearch, playbackExecute, playbackStep,
          hn, connectCall]
        rfl
    · obtain rfl := Option.map_eq_none_iff.1 hnone
      exact ⟨_, c, by rw [StepMachine.run_cons, step_discovered hpc]; rfl, rfl⟩

/-- **From the scan to the connection.** Where every class received is an assigned one, the loop
does not panic, and once it has all it needs it ends by its own steps. From its end Playback
connects to the first suitable device received, once and to no other, or to none and goes on to
`deinit` — if and only if that device, where there is one, has a name. -/
theorem connects_iff {d : Discovery} {capacity : ℕ} {bs : List LoopAction} {l : DiscoveryLoop}
    (hrun : DiscoveryLoop.machine.run (.start d capacity) bs = some l)
    (hassigned : ∀ dev ∈ l.received, ∀ cls, dev.cls = some cls → cls.getMajorDeviceClass.isSome)
    (hpc : s.pc = .playback c .discover) :
    (∀ p, l.pc ≠ .panicked p) ∧
      (l.discovery.panic = none → l.Decided →
        ∃ n t, DiscoveryLoop.machine.run l (List.replicate n .loop) = some t ∧
          t.pc = .ended ∧ t.received = l.received) ∧
      (l.pc = .ended →
        (ConnectsTo reentrant s l.found
            ((l.received.find? suitable).map ScannedDevice.address) ↔
          ∀ dev, l.received.find? suitable = some dev → dev.name.isSome)) := by
  have hdebug : ∀ dev ∈ l.received, dev.debug.isSome := fun dev hmem ↦
    ScannedDevice.debug_isSome_iff.2 (hassigned dev hmem)
  refine ⟨fun p hp ↦ ?_, fun hpanic hdecided ↦ DiscoveryLoop.ends_of_decided hrun hpanic hdebug
    hdecided, fun hended ↦ ?_⟩
  · obtain ⟨dev, hmem, hnone⟩ := DiscoveryLoop.debug_eq_none_of_panicked hrun hp
    exact absurd (hdebug dev hmem) (by simp [hnone])
  · have hok := (DiscoveryLoop.inv_of_run hrun).loopOk
    simp only [DiscoveryLoop.LoopOk, hended] at hok
    rw [← hok.1]
    exact connectsTo_iff hpc l.found

/-- A telephone without the profile. -/
def phone : ScannedDevice :=
  { ScannedDevice.ofAddress (Vector.replicate 6 2) with
    cls := some ⟨0x5a020c⟩, name := some "50" }

/-- The headset with a class and a name. -/
def namedHeadset : ScannedDevice :=
  { DiscoveryLoop.headset with cls := some ⟨0x240404⟩, name := some "41" }

/-- The scan reports both, each received before the next one is reported. -/
def namedRun : List LoopAction :=
  .gap (.discRes phone.address [.bdname [0x50], .cod 0x5a020c]) :: List.replicate 3 .loop ++
    .gap (.discRes namedHeadset.address
      [.bdname [0x41], .cod 0x240404, .eir [0x03, 0x03, 0x0d, 0x11]]) :: List.replicate 4 .loop

/-- Two devices are received, both with an assigned class, and Playback connects to the one that
lists the profile. -/
theorem connects_iff_named : ∃ l s,
    DiscoveryLoop.machine.run (.start .new 2) namedRun = some l ∧ l.pc = .ended ∧
      l.received = [phone, namedHeadset] ∧ l.received.find? suitable = some namedHeadset ∧
      (machine false).run (start 0) firstLap = some s ∧
      ConnectsTo false s l.found (some namedHeadset.address) := by
  have hdevs : (DiscoveryLoop.machine.run (.start .new 2) namedRun).map (fun l ↦
      (decide (l.pc = .ended), l.received)) = some (true, [phone, namedHeadset]) := by
    decide +kernel
  obtain ⟨l, hl, heq⟩ := Option.map_eq_some_iff.1 hdevs
  obtain ⟨hended, hreceived⟩ := Prod.mk.inj heq
  have hended : l.pc = .ended := of_decide_eq_true hended
  have hfirst : l.received.find? suitable = some namedHeadset := by
    rw [hreceived]
    decide
  have hassigned : ∀ dev ∈ l.received, ∀ cls, dev.cls = some cls →
      cls.getMajorDeviceClass.isSome := by
    rw [hreceived]
    rintro dev hmem cls hcls
    rcases List.mem_pair.1 hmem with rfl | rfl <;> cases hcls <;> decide
  obtain ⟨s, hs, hpc⟩ : ∃ s, (machine false).run (start 0) firstLap = some s ∧
    s.pc = .playback ⟨⟨⟩, 0⟩ .discover := ⟨_, rfl, rfl⟩
  have hiff : ConnectsTo false s l.found
      ((l.received.find? suitable).map ScannedDevice.address) ↔
        ∀ dev, l.received.find? suitable = some dev → dev.name.isSome :=
    (connects_iff hl hassigned hpc).2.2 hended
  have hnamed : ∀ dev, l.received.find? suitable = some dev → dev.name.isSome := by
    rintro dev hdev
    rw [hfirst] at hdev
    cases hdev
    rfl
  have h := hiff.2 hnamed
  rw [hfirst] at h
  exact ⟨l, s, hl, hended, hreceived, hfirst, hs, h⟩

/-- A headset that lists the profile and has no name: Playback panics before it connects. -/
theorem not_connectsTo_headset : ∃ l s,
    DiscoveryLoop.machine.run (.start .new 2) DiscoveryLoop.caughtRun = some l ∧
      l.pc = .ended ∧ l.received = [DiscoveryLoop.headset] ∧
      (machine false).run (start 0) firstLap = some s ∧
      (∃ t, (playbackExecute false).run s [.discovered l.found, .run] = some t ∧
        t.pc = .panicked) ∧
      ¬ ConnectsTo false s l.found (some DiscoveryLoop.headset.address) := by
  have hrun : DiscoveryLoop.machine.run (.start .new 2) DiscoveryLoop.caughtRun =
      DiscoveryLoop.machine.run DiscoveryLoop.afterHeadset DiscoveryLoop.caughtRun.tail := by
    rw [DiscoveryLoop.caughtRun, StepMachine.run_cons, DiscoveryLoop.step_headset]
    rfl
  refine ⟨_, _, hrun, rfl, rfl, rfl, ⟨_, rfl, rfl⟩, fun h ↦ ?_⟩
  obtain ⟨t, ht, -⟩ := h.reaches _ rfl (.ok ()) (.ok ())
  cases ht

end MainLoop

end Esp32A2dpPlayer
