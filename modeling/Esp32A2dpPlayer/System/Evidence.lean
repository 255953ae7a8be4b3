import Esp32A2dpPlayer.System.Asks
import Esp32A2dpPlayer.System.Knowledge

/-!
# What a session rests on

The commands that the program has for the stack are `esp_bt_gap_start_discovery`,
`esp_bt_gap_cancel_discovery`, `esp_a2d_source_connect`, and `esp_a2d_media_ctrl` with CHECK_SRC_RDY
and with START. `Session` lists the sequences of them that a run may give, and says for each what
must have come from the stack before:

* a device that a result of the search has reported (`Target`), before the search is cancelled and
  before that device is connected to;
* a CONNECTED that has come after the connect (`Connected`), before the check;
* an acknowledgement of a check (`Acknowledged`), before the start. The acknowledgement may be older
  than the check of this session: `SRC_READY_CALL` does not tell them apart.

What has come from the stack in a run has come in each of its continuations, which the `append`
lemmas say.

`Known` is the half of the invariant that has to do with this. Each part of the program has its
knowledge from the stack, wherever the main task stands.
-/

namespace Esp32A2dpPlayer

namespace Player

/-! ### What has come from the stack -/

/-- A result of the search, which has been started, reports the device. -/
def Reported (arc : MachineArc) (as : List PlayerAction) (dev : ScannedDevice) : Prop :=
  machine.AfterOutput command (· = .startDiscovery)
    (fun a ↦ ∃ bda props ret, a = .gap (.discovery (.discRes bda props)) ret ∧
      scannedDevice bda props = some dev) (start arc) as

/-- A device to connect to. -/
structure Target (arc : MachineArc) (as : List PlayerAction) (dev : ScannedDevice) : Prop where
  reported : Reported arc as dev
  suitable : suitable dev
  named : dev.name.isSome

/-- The connection has been asked for. -/
def Asked (arc : MachineArc) (as : List PlayerAction) : Prop :=
  ∃ addr, .sourceConnect addr ∈ commands arc as

/-- CONNECTED has come after the connection had been asked for. -/
def Connected (arc : MachineArc) (as : List PlayerAction) : Prop :=
  machine.AfterOutput command (fun c ↦ ∃ addr, c = .sourceConnect addr)
    (fun a ↦ ∃ rsn, a = .connect (.evt ⟨.connected, rsn⟩)) (start arc) as

/-- An acknowledgement of a check has come, before or after the check of this session. -/
def Acknowledged (as : List PlayerAction) : Prop :=
  .play (.event (.mediaCtrlAck .checkSrcRdy .success)) ∈ as

/-- The sequences of commands that a run may give, for what has come from the stack: in which order
they stand, and what each of them rests on. -/
structure Session (arc : MachineArc) (as : List PlayerAction) (log : List StackCommand) :
    Prop where
  order : ∃ cs addr, (cs = [] ∨ cs = [.cancelDiscovery]) ∧
    log <+: .startDiscovery :: cs ++ [.sourceConnect addr, .checkSrcRdy, .mediaStart]
  cancels : .cancelDiscovery ∈ log → ∃ dev, Target arc as dev
  connects : ∀ addr, .sourceConnect addr ∈ log → ∃ dev, Target arc as dev ∧ dev.address = addr
  checks : .checkSrcRdy ∈ log → Connected arc as
  starts : .mediaStart ∈ log → Acknowledged as

variable {s t : Player} {a : PlayerAction} {as : List PlayerAction} {arc : MachineArc}
  {log : List StackCommand} {dev : ScannedDevice}

/-- A device that has been reported stays so. -/
theorem Reported.append (h : Reported arc as dev) (bs : List PlayerAction) :
    Reported arc (as ++ bs) dev :=
  StepMachine.AfterOutput.append h bs

theorem Target.append (h : Target arc as dev) (bs : List PlayerAction) :
    Target arc (as ++ bs) dev :=
  ⟨h.reported.append bs, h.suitable, h.named⟩

theorem Connected.append (h : Connected arc as) (bs : List PlayerAction) :
    Connected arc (as ++ bs) :=
  StepMachine.AfterOutput.append h bs

theorem Acknowledged.append (h : Acknowledged as) (bs : List PlayerAction) :
    Acknowledged (as ++ bs) :=
  List.mem_append_left _ h

/-- A session may go on without a command. -/
theorem Session.append (h : Session arc as log) (bs : List PlayerAction) :
    Session arc (as ++ bs) log where
  order := h.order
  cancels hmem := (h.cancels hmem).imp fun _ hdev ↦ hdev.append bs
  connects addr hmem := (h.connects addr hmem).imp fun _ hdev ↦ ⟨hdev.1.append bs, hdev.2⟩
  checks hmem := (h.checks hmem).append bs
  starts hmem := (h.starts hmem).append bs

/-- No more than the search. -/
theorem session_of_search (h : log = [] ∨ log = [.startDiscovery]) : Session arc as log := by
  have hmem {c : StackCommand} (hc : c ∈ log) : c = .startDiscovery := by
    obtain rfl | rfl := h
    · cases hc
    · exact List.mem_singleton.1 hc
  refine ⟨⟨[], Vector.replicate 6 0, .inl rfl, ?_⟩, fun hc ↦ ?_, fun addr hc ↦ ?_, fun hc ↦ ?_,
    fun hc ↦ ?_⟩
  · obtain rfl | rfl := h <;> simp
  all_goals cases hmem hc

/-- What follows on a device that has been found. -/
theorem session_of_target {cs rest : List StackCommand} (hdev : Target arc as dev)
    (hcs : cs = [] ∨ cs = [.cancelDiscovery])
    (hrest : rest <+: [.sourceConnect dev.address, .checkSrcRdy, .mediaStart])
    (hchecks : .checkSrcRdy ∈ rest → Connected arc as)
    (hstarts : .mediaStart ∈ rest → Acknowledged as) :
    Session arc as (.startDiscovery :: cs ++ rest) := by
  have hmem {c : StackCommand} (hc : c ∈ .startDiscovery :: cs ++ rest)
      (hstart : c ≠ .startDiscovery) (hcancel : c ≠ .cancelDiscovery) : c ∈ rest := by
    obtain rfl | rfl := hcs
    all_goals simpa [hstart, hcancel] using hc
  refine ⟨⟨cs, dev.address, hcs, ?_⟩, fun _ ↦ ⟨dev, hdev⟩, fun addr hc ↦ ⟨dev, hdev, ?_⟩,
    fun hc ↦ hchecks (hmem hc nofun nofun), fun hc ↦ hstarts (hmem hc nofun nofun)⟩
  · exact (List.prefix_append_right_inj _).2 hrest
  · have hc' := hrest.subset (hmem hc nofun nofun)
    simp only [List.mem_cons, StackCommand.sourceConnect.injEq, reduceCtorEq, List.not_mem_nil,
      or_self, or_false] at hc'
    exact hc'.symm

/-! ### What the parts know -/

/-- Each part has its knowledge from the stack. -/
structure Known (arc : MachineArc) (as : List PlayerAction) (s : Player) : Prop where
  lap : s.main.OneLap
  slot : s.gap.discovery.discovery.isSome → .startDiscovery ∈ commands arc as
  search : s.search.Informed (Reported arc as)
  connect : s.connect.Informed (Asked arc as) (Connected arc as)
  play : s.play.Informed (Acknowledged as)

/-- Before the first step there is nothing to know. -/
theorem known_start : Known arc [] (start arc) where
  lap := MainLoop.oneLap_start arc
  slot h := by cases h
  search := ⟨fun k dev hdev ↦ (by cases hdev), nofun, nofun⟩
  connect := A2dpConnect.informed_new
  play := ⟨nofun, nofun⟩

/-- The lap goes on in each of the parts. -/
theorem lap_of_move (hs : s.main.OneLap) (h : Move s a t) : t.main.OneLap := by
  cases h with
  | main _ h => exact MainLoop.oneLap_of_step hs h
  | starts hpc _ =>
    exact MainLoop.oneLap_of_step (a := .call (.ok ())) hs
      (by simp [MainLoop.step, hpc, MainLoop.playbackStep, MainLoop.unwrapTo])
  | startFails hpc _ =>
    exact MainLoop.oneLap_of_step (a := .call (.error 0)) hs
      (by simp [MainLoop.step, hpc, MainLoop.playbackStep, MainLoop.unwrapTo])
  | @found c dev hpc _ =>
    exact MainLoop.oneLap_of_step (a := .discovered (some dev)) hs
      (by simp [MainLoop.step, hpc, MainLoop.playbackStep])
  | foundNone hpc =>
    exact MainLoop.oneLap_of_step (a := .discovered none) hs
      (by simp [MainLoop.step, hpc, MainLoop.playbackStep])
  | cancels hpc =>
    exact MainLoop.oneLap_of_step (a := .call (.ok ())) hs
      (by simp [MainLoop.step, hpc, MainLoop.playbackStep])
  | connected hpc _ =>
    exact MainLoop.oneLap_of_step (a := .call (.ok ())) hs
      (by simp [MainLoop.step, hpc, MainLoop.playbackStep, MainLoop.unwrapTo])
  | connectFails hpc _ =>
    exact MainLoop.oneLap_of_step (a := .call (.error 0)) hs
      (by simp [MainLoop.step, hpc, MainLoop.playbackStep, MainLoop.unwrapTo])
  | played hpc _ _ =>
    exact MainLoop.oneLap_of_step (a := .playbackTask (.ok ())) hs
      (by simp [MainLoop.step, hpc, MainLoop.playbackStep, MainLoop.unwrapTo])
  | playFails hpc _ _ =>
    exact MainLoop.oneLap_of_step (a := .playbackTask (.error 0)) hs
      (by simp [MainLoop.step, hpc, MainLoop.playbackStep, MainLoop.unwrapTo])
  | _ => exact hs

/-- The commands after one more step. -/
theorem commands_concat (h : machine.run (start arc) as = some s) (a : PlayerAction) :
    commands arc (as ++ [a]) = commands arc as ++ (s.command a).toList :=
  machine.outputs_concat command h a

/-- The step lemma of what the parts know. A step of one part changes the knowledge of that part
alone, and what the others know has come from the run so far. -/
theorem Known.move (hrun : machine.run (start arc) as = some s) (hs : Known arc as s)
    (h : Move s a t) : Known arc (as ++ [a]) t := by
  have hlap := lap_of_move hs.lap h
  have hcommands := commands_concat hrun a
  -- what was known stays known
  have hslot (hsome : s.gap.discovery.discovery.isSome) :
      .startDiscovery ∈ commands arc (as ++ [a]) := by
    rw [hcommands]
    exact List.mem_append_left _ (hs.slot hsome)
  have hsearch : s.search.Informed (Reported arc (as ++ [a])) :=
    hs.search.mono fun dev hdev ↦ hdev.append [a]
  have hasked (h : Asked arc as) : Asked arc (as ++ [a]) := by
    obtain ⟨addr, haddr⟩ := h
    exact ⟨addr, hcommands ▸ List.mem_append_left _ haddr⟩
  have hconnect : s.connect.Informed (Asked arc (as ++ [a])) (Connected arc (as ++ [a])) :=
    hs.connect.mono hasked fun h ↦ h.append [a]
  have hplay : s.play.Informed (Acknowledged (as ++ [a])) := hs.play.mono fun h ↦ h.append [a]
  cases h with
  -- the search is on its record from here on
  | starts hpc h =>
    obtain ⟨hnone, -, hopen⟩ := Discovery.gapStartDiscovery_eq_ok_iff.1 h
    refine ⟨hlap, fun _ ↦ ?_, ⟨hsearch.reported.gapStartDiscovery h, nofun, nofun⟩, hconnect,
      hplay⟩
    rw [hcommands]
    simp [command, hnone]
  | loop hpc h =>
    refine ⟨hlap, fun hsome ↦ hslot ?_, hsearch.loopStep h, hconnect, hplay⟩
    exact DiscoveryLoop.slot_of_loopStep h ▸ hsome
  | cancels hpc => exact ⟨hlap, hslot, hsearch, A2dpConnect.informed_new, hplay⟩
  | @connectEvt e connect h =>
    have hevt : connect.Informed (Asked arc as) (Connected arc (as ++ [.connect (.evt e)])) := by
      refine (hs.connect.mono id fun h ↦ h.append _).evt (fun ⟨addr, haddr⟩ hconnected ↦ ?_) h
      exact .concat ⟨e.discRsn, by rw [← hconnected]⟩ haddr ⟨addr, rfl⟩
    exact ⟨hlap, hslot, hsearch, hevt.mono hasked id, hplay⟩
  | @connect c dev a connect hpc ha h =>
    refine ⟨hlap, hslot, hsearch, hconnect.step (fun ret hret ↦ ?_) ha h, hplay⟩
    refine ⟨dev.address, ?_⟩
    rw [hcommands]
    simp [command, hpc, hret, ConnectAction.command]
  | playbackTask hpc hplaying h =>
    exact ⟨hlap, hslot, hsearch, hconnect,
      hplay.move (fun ha ↦ (by cases ha)) (A2dpPlay.move_of_step h)⟩
  | play ha h =>
    refine ⟨hlap, hslot, hsearch, hconnect, hplay.move (fun ha ↦ ?_) (A2dpPlay.move_of_step h)⟩
    subst ha
    exact List.mem_append_right _ (List.mem_singleton.2 rfl)
  -- a result is a report, since an open scan has been started
  | @gap e ret gap h =>
    obtain ⟨e', rfl, rfl⟩ | ⟨-, hgap⟩ := GapCallback.discovery_of_btAppGapCb h
    · refine ⟨hlap, fun hsome ↦ hslot (Discovery.isSome_of_btAppGapCb hsome), ⟨?_,
        hsearch.device, hsearch.found⟩, hconnect, hplay⟩
      refine hsearch.reported.btAppGapCb fun bda props dev he hdev hsome ↦ ?_
      exact .concat ⟨bda, props, ret, by rw [he], hdev⟩ (hs.slot hsome) rfl
    · refine ⟨hlap, fun hsome ↦ hslot (by rwa [hgap] at hsome), ⟨?_, hsearch.device,
        hsearch.found⟩, hconnect, hplay⟩
      intro k dev hdev
      refine hsearch.reported k dev ?_
      have hdev : dev ∈ (gap.discovery.channels k).sent := hdev
      rwa [hgap] at hdev
  | @gapNotify gap h =>
    have hgap := GapCallback.discovery_of_notify h
    refine ⟨hlap, fun hsome ↦ hslot (by rwa [hgap] at hsome), ⟨?_, hsearch.device,
      hsearch.found⟩, hconnect, hplay⟩
    intro k dev hdev
    refine hsearch.reported k dev ?_
    have hdev : dev ∈ (gap.discovery.channels k).sent := hdev
    rwa [hgap] at hdev
  | _ => exact ⟨hlap, hslot, hsearch, hconnect, hplay⟩

end Player

end Esp32A2dpPlayer
