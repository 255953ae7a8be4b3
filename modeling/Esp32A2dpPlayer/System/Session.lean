import Esp32A2dpPlayer.Bluetooth.PlayedBytes
import Esp32A2dpPlayer.System.Evidence

/-!
# What the player has the stack do

Safety of the whole program, over every run: what it commands, in which order, and what must have
come from the stack before. The stack is not trusted with anything. Its callbacks may come at any
time, also before they can mean something, and the parts share their statics with them.

A search comes first and is cancelled at most once; one device is connected to, which has been
reported and offers the profile; after CONNECTED the source is checked, and after an acknowledgement
of a check the media is started.

* `one_session`: the commands of a run are a session.
* `bytes_of_session`: and the bytes that the stack has taken are a front of one file, which is
  played after CONNECTED. Before it, and without it, there are none.

The invariant has two halves. `Known` says where each part has its knowledge from, and does not
look at where the main task stands. `Stage` goes by where the main task stands: for each phase it
says which commands have been given, down to the last one, and on which device.
-/

namespace Esp32A2dpPlayer

namespace Player

variable {s t : Player} {a : PlayerAction} {as : List PlayerAction} {arc : MachineArc}
  {log : List StackCommand} {dev : ScannedDevice}

/-! ### What has been commanded -/

/-- Nothing has been played. -/
structure Unplayed (s : Player) : Prop where
  playing : s.playing = false
  idle : s.play.play = .idle
  caller : ∀ i, s.play.srcReadyCall.caller i = .idle
  nextStream : s.play.nextStream = 0

/-- The one `playback_task` has not been called, or has given these commands. -/
def Plays (log : List StackCommand) (s : Player) : Prop :=
  (s.Unplayed ∧ log = []) ∨ (s.playing = true ∧ s.play.Asks log ∧ s.play.nextStream ≤ 1)

/-- One song has been played at most, on a connection. -/
structure OneSong (arc : MachineArc) (as : List PlayerAction) (s : Player) : Prop where
  nextStream : s.play.nextStream ≤ 1
  connected : 0 < s.play.nextStream → Connected arc as

/-- What has been commanded in each phase. -/
def Stage (arc : MachineArc) (as : List PlayerAction) (s : Player) : SessionPhase → Prop
  | .beforeSearch => commands arc as = [] ∧ s.Unplayed
  | .search => commands arc as = [.startDiscovery] ∧ s.Unplayed
  | .found dev => commands arc as = [.startDiscovery] ∧ s.Unplayed ∧ Reported arc as dev ∧
      suitable dev
  | .cancel dev => commands arc as = [.startDiscovery] ∧ s.Unplayed ∧ Target arc as dev
  | .connect dev => s.Unplayed ∧ Target arc as dev ∧
      ∃ cs log, (cs = [] ∨ cs = [.cancelDiscovery]) ∧
        commands arc as = .startDiscovery :: cs ++ log ∧ s.connect.Asks dev.address log
  | .play => ∃ dev cs log, Target arc as dev ∧ Connected arc as ∧
      (cs = [] ∨ cs = [.cancelDiscovery]) ∧
      commands arc as = .startDiscovery :: cs ++ .sourceConnect dev.address :: log ∧
      s.Plays log ∧ (.mediaStart ∈ log → Acknowledged as)
  | .ended => s.play.play = .idle ∧ s.OneSong arc as ∧ Session arc as (commands arc as)

/-- Without a new stream there is no new song. -/
theorem OneSong.frame (h : s.OneSong arc as) (hnext : t.play.nextStream = s.play.nextStream) :
    t.OneSong arc (as ++ [a]) :=
  ⟨hnext ▸ h.nextStream, fun hlt ↦ (h.connected (hnext ▸ hlt)).append [a]⟩

/-- No song is at most one. -/
theorem Unplayed.oneSong (h : s.Unplayed) : s.OneSong arc as :=
  ⟨by simp [h.nextStream], by simp [h.nextStream]⟩

/-- That nothing has been played is a matter of `play` alone. -/
theorem Unplayed.congr (h : s.Unplayed) (hplay : t.play = s.play)
    (hplaying : t.playing = s.playing) : t.Unplayed :=
  ⟨hplaying.trans h.playing, hplay ▸ h.idle, hplay ▸ h.caller, hplay ▸ h.nextStream⟩

/-- So is what it has asked. -/
theorem Plays.congr {log : List StackCommand} (h : s.Plays log) (hplay : t.play = s.play)
    (hplaying : t.playing = s.playing) : t.Plays log := by
  refine h.imp (fun h ↦ ⟨h.1.congr hplay hplaying, h.2⟩) fun h ↦ ?_
  exact ⟨hplaying.trans h.1, hplay ▸ h.2.1, hplay ▸ h.2.2⟩

/-- `play` is idle, except under `playback_task`. -/
theorem Stage.idle {phase : SessionPhase} (hs : Stage arc as s phase) :
    s.play.play = .idle ∨ phase = .play ∧ s.playing = true := by
  cases phase with
  | beforeSearch | search => exact .inl hs.2.idle
  | found dev | cancel dev => exact .inl hs.2.1.idle
  | connect dev => exact .inl hs.1.idle
  | play =>
    obtain ⟨dev, cs, log, -, -, -, -, ⟨hunplayed, -⟩ | ⟨hplaying, -⟩, -⟩ := hs
    · exact .inl hunplayed.idle
    · exact .inr ⟨rfl, hplaying⟩
  | ended => exact .inl hs.1

/-- In one `playback_task` the check comes first, and the start at most once. -/
theorem Plays.prefix_and_le {log : List StackCommand} (h : s.Plays log) :
    log <+: [.checkSrcRdy, .mediaStart] ∧ s.play.nextStream ≤ 1 := by
  obtain ⟨hunplayed, rfl⟩ | ⟨-, hasks, hle⟩ := h
  · exact ⟨List.nil_prefix, by simp [hunplayed.nextStream]⟩
  · refine ⟨?_, hle⟩
    unfold A2dpPlay.Asks at hasks
    split at hasks
    · exact hasks
    · simp [hasks.1]
    · simp [hasks.1]
    · split at hasks <;> simp [hasks]
    · simp [hasks]
    · simp [hasks]

/-- **In every phase there is a session**, and one song at most. -/
theorem Stage.session {phase : SessionPhase} (hs : Stage arc as s phase) :
    s.OneSong arc as ∧ Session arc as (commands arc as) := by
  cases phase with
  | beforeSearch => exact ⟨hs.2.oneSong, session_of_search (.inl hs.1)⟩
  | search => exact ⟨hs.2.oneSong, session_of_search (.inr hs.1)⟩
  | found dev | cancel dev => exact ⟨hs.2.1.oneSong, session_of_search (.inr hs.1)⟩
  | connect dev =>
    obtain ⟨hunplayed, hdev, cs, log, hcs, hlog, hasks⟩ := hs
    have hshort : log = [] ∨ log = [.sourceConnect dev.address] := by
      unfold A2dpConnect.Asks at hasks
      split at hasks
      · exact .inl hasks
      · exact .inl hasks
      · exact hasks
      · exact .inr hasks
    rw [hlog]
    refine ⟨hunplayed.oneSong, session_of_target hdev hcs ?_ ?_ ?_⟩
    all_goals obtain rfl | rfl := hshort <;> simp
  | play =>
    obtain ⟨dev, cs, log, hdev, hconnected, hcs, hlog, hplays, hstarts⟩ := hs
    obtain ⟨hfront, hle⟩ := hplays.prefix_and_le
    rw [hlog]
    refine ⟨⟨hle, fun _ ↦ hconnected⟩, session_of_target hdev hcs ?_ (fun _ ↦ hconnected) ?_⟩
    · exact List.cons_prefix_cons.2 ⟨rfl, hfront⟩
    · intro hmem
      exact hstarts (by simpa using hmem)
  | ended => exact hs.2

/-- A step without a command, in the same phase. -/
theorem Stage.frame {phase : SessionPhase} (hs : Stage arc as s phase)
    (hlog : commands arc (as ++ [a]) = commands arc as)
    (hconnect : ∀ addr log, s.connect.Asks addr log → t.connect.Asks addr log)
    (hunplayed : s.Unplayed → t.Unplayed) (hplays : ∀ log, s.Plays log → t.Plays log)
    (hidle : s.play.play = .idle → t.play.play = .idle)
    (hnext : t.play.nextStream = s.play.nextStream) : Stage arc (as ++ [a]) t phase := by
  unfold Stage at hs ⊢
  rw [hlog]
  cases phase with
  | beforeSearch | search => exact ⟨hs.1, hunplayed hs.2⟩
  | found dev => exact ⟨hs.1, hunplayed hs.2.1, hs.2.2.1.append [a], hs.2.2.2⟩
  | cancel dev => exact ⟨hs.1, hunplayed hs.2.1, hs.2.2.append [a]⟩
  | connect dev =>
    obtain ⟨hun, hdev, cs, log, hcs, heq, hasks⟩ := hs
    exact ⟨hunplayed hun, hdev.append [a], cs, log, hcs, heq, hconnect _ _ hasks⟩
  | play =>
    obtain ⟨dev, cs, log, hdev, hconnected, hcs, heq, hplay, hstarts⟩ := hs
    exact ⟨dev, cs, log, hdev.append [a], hconnected.append [a], hcs, heq, hplays log hplay,
      fun hmem ↦ (hstarts hmem).append [a]⟩
  | ended =>
    obtain ⟨hpc, hsong, hsession⟩ := hs
    exact ⟨hidle hpc, hsong.frame hnext, hsession.append [a]⟩

/-- A session comes to its end. -/
theorem Stage.ended {phase : SessionPhase} (hs : Stage arc as s phase)
    (hlog : commands arc (as ++ [a]) = commands arc as) (hidle : s.play.play = .idle)
    (hplay : t.play = s.play) : Stage arc (as ++ [a]) t .ended := by
  obtain ⟨hsong, hsession⟩ := hs.session
  exact ⟨hplay ▸ hidle, hsong.frame (hplay ▸ rfl), hlog ▸ hsession.append [a]⟩

/-- The step lemma of the phases. The cases are those of `Move`: a step of the main task may go to
the next phase, a step of a part adds its command to the log, and a callback leaves both alone. -/
theorem Stage.move (hrun : machine.run (start arc) as = some s) (hk : Known arc as s)
    (hs : Stage arc as s s.main.pc.phase) (h : Move s a t) :
    Stage arc (as ++ [a]) t t.main.pc.phase := by
  have hcommands := commands_concat hrun a
  -- a step that gives no command and leaves the parts alone
  have hframe (u : Player) (hcommand : s.command a = none) (hconnect : u.connect = s.connect)
      (hplay : u.play = s.play) (hplaying : u.playing = s.playing) {phase : SessionPhase}
      (hs : Stage arc as s phase) : Stage arc (as ++ [a]) u phase :=
    hs.frame (by simp [hcommands, hcommand]) (hconnect ▸ fun _ _ h ↦ h)
      (fun h ↦ h.congr hplay hplaying) (fun _ h ↦ h.congr hplay hplaying) (hplay ▸ id) (hplay ▸ rfl)
  cases h with
  | @main a main hpc h =>
    have hlog : commands arc (as ++ [.main a]) = commands arc as := by simp [hcommands, command]
    show Stage arc _ _ main.pc.phase
    obtain ⟨hbefore, ht | ht⟩ | ⟨dev, hfound, ⟨ht, hname⟩ | ht⟩ | ⟨hover, ht⟩ :=
      MainLoop.phase_of_step hk.lap hpc h
    · rw [hbefore] at hs
      rw [ht]
      exact hframe { s with main } rfl rfl rfl rfl hs
    · rw [hbefore] at hs
      rw [ht]
      exact hs.ended hlog hs.2.idle rfl
    · rw [hfound] at hs
      rw [ht]
      obtain ⟨h₁, h₂, hreported, hsuitable⟩ := hframe { s with main } rfl rfl rfl rfl hs
      exact ⟨h₁, h₂, hreported, hsuitable, hname⟩
    · rw [hfound] at hs
      rw [ht]
      exact hs.ended hlog hs.2.1.idle rfl
    · rw [hover] at hs
      rw [ht]
      exact hframe { s with main } rfl rfl rfl rfl hs
  | starts hpc h =>
    rw [hpc] at hs
    obtain ⟨hlog, hunplayed⟩ := hs
    obtain ⟨hnone, -, -⟩ := Discovery.gapStartDiscovery_eq_ok_iff.1 h
    refine ⟨?_, hunplayed.congr rfl rfl⟩
    simp [hcommands, hlog, command, hnone]
  | startFails hpc _ =>
    rw [hpc] at hs
    obtain ⟨hlog, hunplayed⟩ := hs
    refine ⟨hunplayed.idle, hunplayed.oneSong.frame rfl, session_of_search ?_⟩
    rw [hcommands, hlog, List.nil_append]
    simp only [command]
    split <;> simp
  | loop hpc h => exact hframe (s.setSearch _) rfl rfl rfl rfl hs
  | @found c dev hpc h =>
    rw [hpc] at hs
    obtain ⟨h₁, h₂⟩ := hframe { s with main := { s.main with pc := .playback c (.name dev) } }
      rfl rfl rfl rfl hs
    obtain ⟨hreported, hsuitable⟩ := hk.search.found dev h
    exact ⟨h₁, h₂, hreported.append _, hsuitable⟩
  | foundNone hpc =>
    rw [hpc] at hs
    exact hs.ended (by simp [hcommands, command]) hs.2.idle rfl
  | @cancels c dev ret hpc =>
    rw [hpc] at hs
    obtain ⟨hlog, hunplayed, hdev⟩ := hs
    refine ⟨hunplayed.congr rfl rfl, hdev.append _, (s.command (.cancel ret)).toList, [], ?_, ?_, rfl⟩
    · simp only [command]
      split <;> simp
    · rw [hcommands, hlog]
      simp
  | @connectEvt e connect h =>
    refine hs.frame ?_ (fun addr log hasks ↦ hasks.evt h) (fun h ↦ h.congr rfl rfl)
      (fun log h ↦ h.congr rfl rfl) id rfl
    have hnone : s.command (.connect (.evt e)) = none := by
      simp only [command]
      split <;> rfl
    rw [hcommands, hnone, Option.toList_none, List.append_nil]
  | @connect c dev a connect hpc ha h =>
    rw [hpc] at hs
    show Stage arc _ _ s.main.pc.phase
    rw [hpc]
    obtain ⟨hunplayed, hdev, cs, log, hcs, hlog, hasks⟩ := hs
    refine ⟨hunplayed.congr rfl rfl, hdev.append _, cs, _, hcs, ?_, hasks.step ha h⟩
    rw [hcommands, hlog, List.append_assoc]
    simp only [command, hpc]
  | @connected c dev v hpc h =>
    rw [hpc] at hs
    obtain ⟨hunplayed, hdev, cs, log, hcs, hlog, hasks⟩ := hs
    obtain rfl : log = [.sourceConnect dev.address] := by
      rwa [A2dpConnect.Asks, h] at hasks
    refine ⟨dev, cs, [], hdev.append _, (hk.connect.returned v h).append _, hcs, ?_,
      .inl ⟨hunplayed.congr rfl rfl, rfl⟩, by simp⟩
    rw [hcommands, hlog]
    simp [command]
  -- a panic is an end as well
  | connectFails hpc _ =>
    rw [hpc] at hs
    exact hs.ended (by simp [hcommands, command]) hs.1.idle rfl
  | @playbackTask c file spawn play hpc hplaying h =>
    rw [hpc] at hs
    show Stage arc _ _ s.main.pc.phase
    rw [hpc]
    obtain ⟨dev, cs, log, hdev, hconnected, hcs, hlog, ⟨hunplayed, rfl⟩ | ⟨hbusy, -⟩, -⟩ := hs
    · obtain ⟨hasks, hle⟩ :=
        A2dpPlay.asks_of_playbackTask hunplayed.caller (A2dpPlay.move_of_step h)
      rw [hunplayed.nextStream] at hle
      refine ⟨dev, cs, [], hdev.append _, hconnected.append _, hcs, ?_, .inr ⟨rfl, hasks, hle⟩,
        by simp⟩
      rw [hcommands, hlog]
      simp [command, A2dpPlay.command]
    · rw [hplaying] at hbusy
      cases hbusy
  | @play a play ha h =>
    have hmove := A2dpPlay.move_of_step h
    have hnext := A2dpPlay.nextStream_of_move ha hmove
    show Stage arc _ _ s.main.pc.phase
    -- a late callback, or a step of the one `playback_task`
    obtain hidle | ⟨hphase, hplaying⟩ := hs.idle
    · obtain ⟨hidle', hcaller, hcommand⟩ := A2dpPlay.idle_of_move hidle ha hmove
      have hunplayed (h : s.Unplayed) : Unplayed { s with play } :=
        ⟨h.playing, hidle', hcaller ▸ h.caller, hnext.trans h.nextStream⟩
      refine hs.frame ?_ (fun _ _ h ↦ h) hunplayed (fun log hplays ↦ ?_) (fun _ ↦ hidle') hnext
      · rw [hcommands, command, hcommand, Option.toList_none, List.append_nil]
      · obtain ⟨hun, hlog⟩ | ⟨h₁, h₂, h₃⟩ := hplays
        · exact .inl ⟨hunplayed hun, hlog⟩
        · exact .inr ⟨h₁, h₂.congr (hidle'.trans hidle.symm) hcaller, hnext ▸ h₃⟩
    · rw [hphase] at hs ⊢
      obtain ⟨dev, cs, log, hdev, hconnected, hcs, hlog, ⟨hun, -⟩ | ⟨-, hasks, hle⟩, hstarts⟩ := hs
      · rw [hun.playing] at hplaying
        cases hplaying
      · refine ⟨dev, cs, _, hdev.append _, hconnected.append _, hcs, ?_,
          .inr ⟨hplaying, hasks.move ha hmove, hnext ▸ hle⟩, fun hmem ↦ ?_⟩
        · rw [hcommands, hlog, command]
          simp
        · refine Acknowledged.append ?_ _
          rcases List.mem_append.1 hmem with hmem | hmem
          · exact hstarts hmem
          · obtain ⟨n, hn⟩ := A2dpPlay.start_of_command (Option.mem_toList.1 hmem)
            exact hk.play.start n hn
  | played hpc hidle _ | playFails hpc hidle _ =>
    exact hs.ended (by simp [hcommands, command]) hidle rfl
  | @gap e ret gap h => exact hframe { s with gap } rfl rfl rfl rfl hs
  | @gapNotify gap h => exact hframe { s with gap } rfl rfl rfl rfl hs

/-! ### The session -/

/-- The run lemma of what the parts know. -/
theorem known_of_run (h : machine.run (start arc) as = some s) : Known arc as s :=
  machine.run_invariant (I := Known arc) known_start
    (fun _ _ _ _ hrun hs ht ↦ hs.move hrun (move_of_step ht)) h

/-- Nothing has been commanded before the first step. -/
theorem stage_start : Stage arc [] (start arc) .beforeSearch := ⟨rfl, rfl, rfl, fun _ ↦ rfl, rfl⟩

/-- The run lemma of the phases. -/
theorem stage_of_run (h : machine.run (start arc) as = some s) :
    Stage arc as s s.main.pc.phase :=
  machine.run_invariant (I := fun as s ↦ Stage arc as s s.main.pc.phase) stage_start
    (fun _ _ _ _ hrun hs ht ↦ hs.move hrun (known_of_run hrun) (move_of_step ht)) h

/-- **There is one session.** Over every run, whatever the stack does and whenever: the search is
started first and cancelled at most once, then one device is connected to, then the source is
checked, then the media is started, and nothing is commanded twice. The device has been reported
by the search and offers the profile, the check comes after CONNECTED has answered the connect, and
the start after an acknowledgement of a check. -/
theorem one_session (h : machine.run (start arc) as = some s) :
    Session arc as (commands arc as) :=
  (stage_of_run h).session.2

/-- A headset that gives its name and lists the profile. -/
def namedHeadset : GapCbEvent :=
  .discovery (.discRes (Vector.replicate 6 1)
    [.bdname [0x41], .eir [0x03, 0x03, 0x0d, 0x11]])

/-- The first lap up to the search. -/
def toSearch : List PlayerAction :=
  MainLoop.firstLap.dropLast.map .main ++ [.startDiscovery (.ok ())]

/-- The headset is found, connected to and played to. -/
def wholeSession : List PlayerAction :=
  toSearch ++ [.gap namedHeadset (.ok ()), .loop, .loop, .loop, .loop, .returns, .main .run,
    .cancel (.ok ()), .connect .listen, .connect (.sourceConnect (.ok ())),
    .connect (.evt ⟨.connecting, 0⟩), .connect .resume, .connect .check, .connect .listen,
    .connect (.evt ⟨.connected, 0⟩), .connect .resume, .connect .check, .connect .finish,
    .returns, .play (.playbackTask ⟨true, true, [[5, 6]], false⟩ (.ok ())), .play .play,
    .play .play, .play .play, .play .play, .play (.mediaCtrl (.ok ())),
    .play (.event (.mediaCtrlAck .checkSrcRdy .success)), .play .notify, .play .play,
    .play .play, .play (.mediaCtrl (.ok ())), .returns]

/-- In the run of one headset all five commands are given, in this order. -/
theorem one_session_wholeSession : ∃ s, machine.run (start 0) wholeSession = some s ∧
    commands 0 wholeSession = [.startDiscovery, .cancelDiscovery,
      .sourceConnect (Vector.replicate 6 1), .checkSrcRdy, .mediaStart] ∧
    Session 0 wholeSession (commands 0 wholeSession) := by
  obtain ⟨s, hs⟩ : ∃ s, machine.run (start 0) wholeSession = some s :=
    Option.isSome_iff_exists.1 (by decide +kernel)
  exact ⟨s, hs, by decide +kernel, one_session hs⟩

/-! ### The song -/

/-- The step as `play` and the A2DP callbacks see it. -/
def PlayerAction.play? : PlayerAction → Option PlayAction
  | .play a => some a
  | _ => none

/-- The files that are played in a run. -/
def songs (as : List PlayerAction) : List OggFile :=
  played (as.filterMap PlayerAction.play?)

/-- In the whole, `play` and the A2DP callbacks run as they do by themselves. -/
theorem play_of_run (h : machine.run (start arc) as = some s) :
    A2dpPlay.machine.run .new (as.filterMap PlayerAction.play?) = some s.play := by
  rw [← StepMachine.outputs_eq_filterMap PlayerAction.play? h]
  refine StepMachine.run_of_projection Player.play (fun s a t ht ↦ ?_) h
  have hsingle {a : PlayAction} {play : A2dpPlay} (h : s.play.step a = some play) :
      A2dpPlay.machine.run s.play [a] = some play := by
    rw [StepMachine.run_cons, show A2dpPlay.machine.step s.play a = some play from h]
    rfl
  cases move_of_step ht with
  | playbackTask _ _ h | play _ h => exact hsingle h
  | _ => rfl

/-- **What the stack has taken.** Over every run: one file is played at most, it is played on a
connection, and the bytes that the data callback has returned, before and after, are a front of the
samples of that file. -/
theorem bytes_of_session (h : machine.run (start arc) as = some s) :
    (songs as).length ≤ 1 ∧ (songs as ≠ [] → Connected arc as) ∧
      s.play.delivered.flatMap DataResult.bytes <+:
        (songs as).flatMap fun file ↦ bytesOf file.supply := by
  have hdelivers : A2dpPlay.Delivers (songs as) s.play := A2dpPlay.delivers_of_run (play_of_run h)
  obtain ⟨⟨hle, hconnected⟩, -⟩ := (stage_of_run h).session
  rw [hdelivers.count] at hle hconnected
  refine ⟨hle, fun hne ↦ hconnected (List.length_pos_iff.2 hne), ?_⟩
  obtain ⟨pieces, hpieces, hbytes⟩ := exists_pieces fun n file hfile ↦
    (hdelivers.serving n file hfile).exists_piece
  rw [hdelivers.inOrder, hdelivers.count, hbytes]
  -- at most one file, so that its piece is all there is
  match songs as, hle, hpieces with
  | [], _, .nil => exact List.prefix_refl _
  | [file], _, .cons hpiece .nil =>
    simpa [bytesOf] using hpiece.flatMap fun sample ↦ ByteCodec.u16le.encode sample.toUInt16
  | _ :: _ :: _, hle, _ => simp at hle

/-- The session goes on until the stack has taken four bytes. -/
def heardSession : List PlayerAction :=
  wholeSession ++ List.replicate 8 (.play (.decoder 0)) ++
    .play (.dataCb [0, 0, 0, 0, 0] 5) :: List.replicate 10 (.play .data)

/-- The two samples of the file have been taken, and the data callback has returned them. -/
theorem bytes_of_session_heard : ∃ s, machine.run (start 0) heardSession = some s ∧
    s.play.delivered.flatMap DataResult.bytes = [5, 0, 6, 0] ∧
      s.play.delivered.flatMap DataResult.bytes <+:
        (songs heardSession).flatMap fun file ↦ bytesOf file.supply := by
  have hbytes : (machine.run (start 0) heardSession).map (fun s ↦
      s.play.delivered.flatMap DataResult.bytes) = some [5, 0, 6, 0] := by decide +kernel
  obtain ⟨s, hs, hbytes⟩ := Option.map_eq_some_iff.1 hbytes
  exact ⟨s, hs, hbytes, (bytes_of_session hs).2.2⟩

end Player

end Esp32A2dpPlayer
