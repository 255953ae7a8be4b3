import Esp32A2dpPlayer.Playback.Connect
import Esp32A2dpPlayer.System.Aborts
import Esp32A2dpPlayer.System.Blocking

/-!
# What the player waits for

The main task awaits mutexes, listeners and a receiver, which the callbacks have a hand in.
`waits_iff` says where it can take no step, with the return of a call counted as one: where it waits
for its own lock, for the next result of the search, for the next connection event, for the guard of
`PLAY_STATE`, or for an answer to its check.

So nothing else holds it up. A listener is registered wherever it is awaited; a part that is through
returns to `execute`; and the guard of `PLAY_STATE` is in other hands only while the data callback
has no stream to read from, since the one stream there is comes with the one `play`.

`wakes_iff` says what lets it go on. In the last four places it is the next result, the next
connection event, the return of the data callback, or the next notification, and no other step of
the callbacks and the threads. In the first place it is nothing at all.
-/

namespace Esp32A2dpPlayer

/-- A step of the main task, or the return of a call that it has made. -/
def PlayerAction.OfMain : PlayerAction → Prop
  | .main _ | .startDiscovery _ | .loop | .cancel _ | .returns => True
  | .connect a => ∀ connState, a ≠ .evt connState
  | .play a => a.OfTask
  | .gap _ _ | .gapNotify => False

namespace Player

variable {s t : Player} {a : PlayerAction} {as : List PlayerAction} {arc : MachineArc}

/-- What the main task waits for. -/
def Waits (s : Player) : Prop :=
  match s.main.pc with
  -- its own lock
  | .playback c .lockMachine => c.machine ∈ s.main.guards
  -- the next result of the search, or its end
  | .playback _ .discover => s.loop = .recv ∧ s.search.Idle
  | .playback _ (.connect _) => s.connect.Waits
  | .playback _ .play => s.play.Waits
  | _ => False

/-- What keeps the main task from waiting elsewhere. -/
structure Awake (s : Player) : Prop where
  listeners : s.play.srcReadyCall.ListenersOk
  connect : s.connect.Listens
  placed : s.playing = true → s.play.Placed

/-- Before the first step nothing is awaited. -/
theorem awake_start : Awake (start arc) where
  listeners i := by simp [start, A2dpPlay.new, AsyncCall.new]
  connect := A2dpConnect.listens_new
  placed h := by cases h

/-- The step lemma of what keeps the main task from waiting elsewhere. The one `playback_task` finds
`PLAY_STATE` empty, since nothing has been played before. -/
theorem Awake.move (hrun : machine.run (start arc) as = some s) (hs : s.Awake) (h : Move s a t) :
    t.Awake := by
  have hlisteners {a : PlayAction} {play : A2dpPlay} (h : s.play.step a = some play) :
      play.srcReadyCall.ListenersOk := by
    obtain heq | ⟨b, hb⟩ := A2dpPlay.srcReadyCall_of_move (A2dpPlay.move_of_step h)
    · exact heq ▸ hs.listeners
    · exact AsyncCall.listenersOk_of_step hs.listeners hb
  cases h with
  | cancels _ => exact ⟨hs.listeners, A2dpConnect.listens_new, hs.placed⟩
  | connectEvt h => exact ⟨hs.listeners, hs.connect.evt h, hs.placed⟩
  | connect _ ha h => exact ⟨hs.listeners, hs.connect.step ha h, hs.placed⟩
  | playbackTask hpc hplaying h =>
    refine ⟨hlisteners h, hs.connect, fun _ ↦ ?_⟩
    have hstage := stage_of_run hrun
    rw [hpc] at hstage
    obtain ⟨dev, cs, log, -, -, -, -, ⟨hunplayed, -⟩ | ⟨hbusy, -⟩, -⟩ := hstage
    · have hstate : s.play.playState = none := by
        by_contra hne
        obtain ⟨n, hn⟩ := Option.ne_none_iff_exists'.1 hne
        have hlt := (A2dpPlay.delivers_of_run (play_of_run hrun)).installed n hn
        rw [hunplayed.nextStream] at hlt
        exact absurd hlt (Nat.not_lt_zero n)
      exact A2dpPlay.placed_of_playbackTask hstate hunplayed.caller (A2dpPlay.move_of_step h)
    · rw [hplaying] at hbusy
      cases hbusy
  | play ha h =>
    refine ⟨hlisteners h, hs.connect, fun hplaying ↦ ?_⟩
    exact (hs.placed hplaying).move ha (A2dpPlay.move_of_step h)
  | played _ _ _ | playFails _ _ _ => exact ⟨hs.listeners, hs.connect, nofun⟩
  | _ => exact ⟨hs.listeners, hs.connect, hs.placed⟩

/-- The run lemma of what keeps the main task from waiting elsewhere. -/
theorem awake_of_run (h : machine.run (start arc) as = some s) : s.Awake :=
  machine.run_invariant (I := fun _ s ↦ s.Awake) awake_start
    (fun _ _ _ _ hrun hs ht ↦ hs.move hrun (move_of_step ht)) h

/-- A part of the main task that is stuck waits for the stack. -/
theorem waits_of_inPart (hrun : machine.run (start arc) as = some s) (halive : s.alive = true)
    (hpart : s.main.pc.inPart = true) (h : ∀ a : PlayerAction, a.OfMain → s.turn a = none) :
    s.Waits := by
  obtain ⟨-, ⟨hpanic, -⟩, hloop, hconnect, hplay⟩ := alive_eq_true_iff.1 halive
  have hs := awake_of_run hrun
  have hreturns := h .returns trivial
  rcases hpc : s.main.pc with - | - | - | c | ⟨c, pc⟩ | ⟨c, pc⟩ | next | -
  case playback =>
    rw [hpc] at hpart
    rw [Waits, hpc]
    cases pc with
    | startDiscovery =>
      have hstart := h (.startDiscovery (.ok ())) trivial
      simp only [turn, hpc] at hstart
      split at hstart
      · simp [mainStep, setSearch, MainLoop.step, hpc, MainLoop.playbackStep] at hstart
      · simp [mainStep, MainLoop.step, hpc, MainLoop.playbackStep] at hstart
    | cancel dev =>
      have hcancel := h (.cancel (.ok ())) trivial
      simp [turn, hpc, mainStep, MainLoop.step, MainLoop.playbackStep] at hcancel
    | discover =>
      have hnone : s.search.loopStep = none := by
        have hturn := h .loop trivial
        rw [turn, hpc] at hturn
        exact (DiscoveryLoop.step_loop_eq (s := s.search) hpanic hloop).symm.trans
          (Option.map_eq_none_iff.1 hturn)
      obtain hwaits | hended | ⟨p, hp⟩ := (DiscoveryLoop.loopStep_eq_none_iff
        ((sound_of_run hrun).scan (.inr (by rw [hpc]; rfl)))).1 hnone
      · exact hwaits
      · have hended : s.loop = .ended := hended
        cases hfound : s.found <;>
          simp [turn, returns, hpc, hended, hfound, mainStep, MainLoop.step,
            MainLoop.playbackStep] at hreturns
      · exact absurd hp (hloop p)
    | connect dev =>
      have hnone (a : ConnectAction) (ha : ∀ connState, a ≠ .evt connState) :
          s.connect.step a = none := by
        have hturn := h (.connect a) ha
        cases a with
        | evt connState => exact absurd rfl (ha connState)
        | _ =>
          rw [turn, hpc] at hturn
          · exact Option.map_eq_none_iff.1 hturn
          · simp
      obtain hwaits | ⟨result, hresult⟩ | hpanicked :=
        (A2dpConnect.step_eq_none_iff hs.connect).1 hnone
      · exact hwaits
      · simp [turn, returns, hpc, hresult, mainStep, MainLoop.step, MainLoop.playbackStep]
          at hreturns
      · exact absurd hpanicked hconnect
    | play =>
      have hguarded := A2dpPlay.guarded_of_run (play_of_run hrun)
      cases hplaying : s.playing with
      | false =>
        have hidle := (stage_of_run hrun).idle.resolve_right (by simp [hplaying])
        have hstart := h (.play (.playbackTask ⟨false, false, [], false⟩ (.ok ()))) trivial
        simp [turn, hpc, hplaying, A2dpPlay.step, hplay, A2dpPlay.playbackTask, hidle] at hstart
      | true =>
        have hplaced := hs.placed hplaying
        have hnone (a : PlayAction) (ha : a.OfTask)
            (hne : ∀ file spawn, a ≠ .playbackTask file spawn) : s.play.step a = none := by
          have hturn := h (.play a) ha
          cases a with
          | playbackTask file spawn => exact absurd rfl (hne file spawn)
          | _ => exact Option.map_eq_none_iff.1 hturn
        obtain hwaits | hidle :=
          (A2dpPlay.step_eq_none_iff hplaced hguarded hs.listeners hplay).1
            ⟨hnone .play trivial (by simp), fun ret ↦ hnone (.mediaCtrl ret) trivial (by simp)⟩
        · exact hwaits
        · obtain ⟨result, hlast⟩ := Option.ne_none_iff_exists'.1
            (mt List.getLast?_eq_none_iff.1 (hplaced.result hidle))
          simp [turn, returns, hpc, hplaying, hidle, hlast, mainStep, MainLoop.step,
            MainLoop.playbackStep] at hreturns
    | _ => cases hpart
  all_goals
    rw [hpc] at hpart
    cases hpart

/-- Outside of `a2dp_connect` there is no step of `connect`. -/
theorem turn_connect_eq_none {a : ConnectAction}
    (hpc : ∀ c dev, s.main.pc ≠ .playback c (.connect dev)) (ha : ∀ connState, a ≠ .evt connState) :
    s.turn (.connect a) = none := by
  cases a with
  | evt connState => exact absurd rfl (ha connState)
  | _ => simp only [turn]

/-- Outside of `playback_task`, or behind its return, there is no step of `play`. -/
theorem turn_play_eq_none {a : PlayAction} (hpc : ∀ c, s.main.pc ≠ .playback c .play)
    (hidle : s.play.play = .idle) (ha : a.OfTask) : s.turn (.play a) = none := by
  cases a with
  | playbackTask file spawn =>
    simp only [turn]
    split
    · exact absurd ‹_› (hpc _)
    · rfl
  | play | mediaCtrl ret =>
    refine Option.map_eq_none_iff.2 ?_
    simp [A2dpPlay.step, A2dpPlay.playStep, A2dpPlay.mediaCtrl, hidle]
  | _ => exact ha.elim

/-- Where it waits, the main task can take no step. -/
theorem turn_eq_none_of_waits (hrun : machine.run (start arc) as = some s) (hs : s.Waits)
    (halive : s.alive = true) (ha : a.OfMain) : s.turn a = none := by
  obtain ⟨-, ⟨hpanic, -⟩, hloop, -, hplay⟩ := alive_eq_true_iff.1 halive
  have hawake := awake_of_run hrun
  have hidle := (stage_of_run hrun).idle
  unfold Waits at hs
  split at hs
  next c hpc =>
    cases a with
    | main a =>
      cases a <;> simp [turn, hpc, MainPc.inPart, mainStep, MainLoop.step, MainLoop.playbackStep,
        MainLoop.canLock, hs]
    | connect a => exact turn_connect_eq_none (by simp [hpc]) ha
    | play a =>
      exact turn_play_eq_none (by simp [hpc]) (hidle.resolve_right (by simp [hpc, MainPc.phase])) ha
    | gap e ret | gapNotify => exact ha.elim
    | _ => simp [turn, returns, hpc]
  next c hpc =>
    obtain ⟨hrecv, hwaits⟩ := hs
    cases a with
    | main a => simp [turn, hpc, MainPc.inPart]
    | loop =>
      have hwatched := (sound_of_run hrun).scan (.inr (by rw [hpc]; rfl))
      have hnone : s.search.step .loop = none :=
        (DiscoveryLoop.step_loop_eq (s := s.search) hpanic hloop).trans
          ((DiscoveryLoop.loopStep_eq_none_iff hwatched).2 (.inl ⟨hrecv, hwaits⟩))
      simp [turn, hpc, hnone]
    | connect a => exact turn_connect_eq_none (by simp [hpc]) ha
    | play a =>
      exact turn_play_eq_none (by simp [hpc]) (hidle.resolve_right (by simp [hpc, MainPc.phase])) ha
    | returns => simp [turn, returns, hpc, hrecv]
    | gap e ret | gapNotify => exact ha.elim
    | _ => simp [turn, hpc]
  next c dev hpc =>
    have hnone := (A2dpConnect.step_eq_none_iff hawake.connect).2 (.inl hs)
    obtain ⟨hawaits, -⟩ := hs
    cases a with
    | main a => simp [turn, hpc, MainPc.inPart]
    | connect a =>
      have hstep := hnone a ha
      cases a with
      | evt connState => exact absurd rfl (ha connState)
      | _ => simp [turn, hpc, hstep]
    | play a =>
      exact turn_play_eq_none (by simp [hpc]) (hidle.resolve_right (by simp [hpc, MainPc.phase])) ha
    | returns =>
      obtain hawaits | hawaits := hawaits
      all_goals simp [turn, returns, hpc, hawaits]
    | gap e ret | gapNotify => exact ha.elim
    | _ => simp [turn, hpc]
  next c hpc =>
    have hbusy : s.play.play ≠ .idle := by
      obtain ⟨⟨n, hn⟩, -⟩ | ⟨n, hn, -⟩ := hs <;> simp [hn]
    obtain ⟨-, hplaying⟩ := hidle.resolve_left hbusy
    obtain ⟨hnone, hmedia⟩ := (A2dpPlay.step_eq_none_iff (hawake.placed hplaying)
      (A2dpPlay.guarded_of_run (play_of_run hrun)) hawake.listeners hplay).2 (.inl hs)
    cases a with
    | main a => simp [turn, hpc, MainPc.inPart]
    | connect a => exact turn_connect_eq_none (by simp [hpc]) ha
    | play a =>
      cases a with
      | playbackTask file spawn => simp [turn, hpc, hplaying]
      | play => simp [turn, hnone]
      | mediaCtrl ret => simp [turn, hmedia ret]
      | _ => exact ha.elim
    | returns => simp [turn, returns, hpc, hplaying, hbusy]
    | gap e ret | gapNotify => exact ha.elim
    | _ => simp [turn, hpc]
  · exact hs.elim

/-- A program that goes on takes its turn. -/
theorem step_eq_turn (halive : s.alive = true) (a : PlayerAction) : s.step a = s.turn a := by
  simp [step, halive]

/-- A main task that is stuck waits for its own lock, or for the stack. -/
theorem waits_of_stuck (hrun : machine.run (start arc) as = some s) (halive : s.alive = true)
    (h : ∀ a : PlayerAction, a.OfMain → s.step a = none) : s.Waits := by
  simp only [step_eq_turn halive] at h
  cases hpart : s.main.pc.inPart with
  | true => exact waits_of_inPart hrun halive hpart h
  | false =>
    have hmain (a : MainAction) : s.main.step false a = none := by
      simpa [turn, hpart, mainStep] using h (.main a) trivial
    have hnone (a : MainAction) : (s.main.step false a).isSome = false := by simp [hmain]
    obtain ⟨a, -, ha⟩ | ⟨d, hd⟩ | hpanicked | ⟨c, hpc⟩ := (known_of_run hrun).lap.cases
    · exact absurd ha (by simp [hnone])
    · obtain ⟨a, ha⟩ := hd.exists_answer
      exact absurd ha (by simp [hnone])
    · simp [alive, hpanicked] at halive
    · have hlock := hmain .lock
      simpa [Waits, hpc, MainLoop.step, MainLoop.playbackStep, MainLoop.canLock] using hlock

/-- A main task that waits is stuck. -/
theorem stuck_of_waits (hrun : machine.run (start arc) as = some s) (halive : s.alive = true)
    (hs : s.Waits) (a : PlayerAction) (ha : a.OfMain) : s.step a = none :=
  (step_eq_turn halive a).trans (turn_eq_none_of_waits hrun hs halive ha)

/-- **What the main task waits for.** In each state that is reached and has not panicked, it can
take no step, and no call is to return to it, if and only if it waits for its own lock, for the
next result of the search, for the next connection event, for the data callback to give up the
guard of `PLAY_STATE`, or for an answer to its check. -/
theorem waits_iff (h : machine.run (start arc) as = some s) (halive : s.alive = true) :
    (∀ a : PlayerAction, a.OfMain → s.step a = none) ↔ s.Waits :=
  ⟨waits_of_stuck h halive, stuck_of_waits h halive⟩

/-- CONNECTED comes before `connect` has looked at CONNECTING. -/
def missedConnection : List PlayerAction :=
  toSearch ++ [.gap namedHeadset (.ok ()), .loop, .loop, .loop, .loop, .returns, .main .run,
    .cancel (.ok ()), .connect .listen, .connect (.sourceConnect (.ok ())),
    .connect (.evt ⟨.connecting, 0⟩), .connect (.evt ⟨.connected, 0⟩), .connect .resume,
    .connect .check]

/-- The main task is in the first loop of `connect`, and has not been notified. -/
def inFirstLoop (s : Player) : Bool :=
  match s.main.pc, s.connect.pc, s.connect.connectionStateEvent.status () with
  | .playback _ (.connect _), .awaitConnecting, .waiting => true
  | _, _, _ => false

/-- In the first loop of `connect` the main task waits for a connection event. -/
theorem waits_of_inFirstLoop (h : s.inFirstLoop = true) :
    s.Waits ∧ ∃ c dev, s.main.pc = .playback c (.connect dev) := by
  unfold inFirstLoop at h
  split at h
  next c dev hpc hawaits hwaiting =>
    refine ⟨?_, c, dev, hpc⟩
    rw [Waits, hpc]
    exact ⟨.inl hawaits, hwaiting⟩
  · cases h

/-- The main task waits for a connection event, and the device is connected. -/
theorem waits_iff_missedConnection : ∃ s, machine.run (start 0) missedConnection = some s ∧
    s.connect.connectionState.state = .connected ∧
      ∀ a : PlayerAction, a.OfMain → s.step a = none := by
  have hrun : (machine.run (start 0) missedConnection).map (fun s ↦
      (s.alive, s.connect.connectionState.state, s.inFirstLoop)) =
        some (true, .connected, true) := by
    decide +kernel
  obtain ⟨s, hs, heq⟩ := Option.map_eq_some_iff.1 hrun
  simp only [Prod.mk.injEq] at heq
  obtain ⟨halive, hstate, hloop⟩ := heq
  exact ⟨s, hs, hstate, (waits_iff hs halive).2 (waits_of_inFirstLoop hloop).1⟩

/-! ### What wakes it -/

/-- What wakes the main task. -/
def Wakes (s : Player) : PlayerAction → Prop
  | .gap (.discovery e) _ => (∃ c, s.main.pc = .playback c .discover) ∧ e.Wakes
  | .connect (.evt _) => ∃ c dev, s.main.pc = .playback c (.connect dev)
  | .play a => (∃ c, s.main.pc = .playback c .play) ∧ s.play.Wakes a
  | _ => False

/-- The main task waits on where what it waits for does. -/
theorem Waits.congr (hs : s.Waits) (hmain : t.main = s.main)
    (hsearch : (∃ c, s.main.pc = .playback c .discover) → s.loop = .recv ∧ s.search.Idle →
      t.loop = .recv ∧ t.search.Idle)
    (hconnect : (∃ c dev, s.main.pc = .playback c (.connect dev)) → s.connect.Waits →
      t.connect.Waits)
    (hplay : (∃ c, s.main.pc = .playback c .play) → s.play.Waits → t.play.Waits) : t.Waits := by
  unfold Waits at hs ⊢
  rw [hmain]
  split at hs
  next c hpc => simpa only [hpc] using hs
  next c hpc => simpa only [hpc] using hsearch ⟨c, hpc⟩ hs
  next c dev hpc => simpa only [hpc] using hconnect ⟨c, dev, hpc⟩ hs
  next c hpc => simpa only [hpc] using hplay ⟨c, hpc⟩ hs
  · exact hs.elim

/-- What a step of the callbacks and the threads does to a main task that waits, part by part. -/
theorem waits_move_iff (hrun : machine.run (start arc) as = some s) (hs : s.Waits)
    (ha : ¬ a.OfMain) (hpanic : t.gap.discovery.panic = none) (h : Move s a t) :
    t.Waits ↔ ¬ s.Wakes a := by
  cases h with
  | @connectEvt e connect h =>
    by_cases hpc : ∃ c dev, s.main.pc = .playback c (.connect dev)
    · refine iff_of_false (fun ht ↦ ?_) (not_not_intro hpc)
      obtain ⟨c, dev, hpc⟩ := hpc
      exact A2dpConnect.not_waits_of_evt h (by simpa only [Waits, hpc] using ht)
    · exact iff_of_true (hs.congr rfl (fun _ h ↦ h) (fun h ↦ absurd h hpc) fun _ h ↦ h) hpc
  | @play a play hne h =>
    by_cases hpc : ∃ c, s.main.pc = .playback c .play
    · have hwakes : s.Wakes (.play a) ↔ s.play.Wakes a := and_iff_right hpc
      rw [hwakes]
      obtain ⟨c, hpc⟩ := hpc
      have hplay : s.play.Waits := by simpa only [Waits, hpc] using hs
      have ht : Waits { s with play } ↔ play.Waits := by simp only [Waits, hpc]
      have hbusy : s.play.play ≠ .idle := by
        obtain ⟨⟨n, hn⟩, -⟩ | ⟨n, hn, -⟩ := hplay <;> simp [hn]
      obtain ⟨-, hplaying⟩ := (stage_of_run hrun).idle.resolve_left hbusy
      exact ht.trans (A2dpPlay.waits_move_iff ((awake_of_run hrun).placed hplaying)
        (A2dpPlay.delivers_of_run (play_of_run hrun)) hplay ha (A2dpPlay.move_of_step h))
    · exact iff_of_true (hs.congr rfl (fun _ h ↦ h) (fun _ h ↦ h) fun h ↦ absurd h hpc)
        fun h ↦ hpc h.1
  | @gap e ret gap h =>
    obtain ⟨e, rfl, rfl⟩ | ⟨hne, hgap⟩ := GapCallback.discovery_of_btAppGapCb h
    · by_cases hpc : ∃ c, s.main.pc = .playback c .discover
      · have hwakes : s.Wakes (.gap (.discovery e) ret) ↔ e.Wakes := and_iff_right hpc
        obtain ⟨c, hpc⟩ := hpc
        have hwatched := (sound_of_run hrun).scan (.inr (by rw [hpc]; rfl))
        obtain ⟨hrecv, hidle⟩ : s.loop = .recv ∧ s.search.Idle := by
          simpa only [Waits, hpc] using hs
        rw [hwakes, ← DiscoveryLoop.idle_gap_iff hwatched hidle hpanic]
        simp only [Waits, hpc]
        exact and_iff_right hrecv
      · exact iff_of_true (hs.congr rfl (fun h ↦ absurd h hpc) (fun _ h ↦ h) fun _ h ↦ h)
          fun h ↦ hpc h.1
    · have hsearch : search { s with gap } = s.search := by simp [search, hgap]
      refine iff_of_true (hs.congr rfl (fun _ h ↦ ?_) (fun _ h ↦ h) fun _ h ↦ h) ?_
      · rwa [hsearch]
      · cases e with
        | discovery e => exact absurd rfl (hne e)
        | _ => exact id
  | @gapNotify gap h =>
    have hsearch : search { s with gap } = s.search := by
      simp [search, GapCallback.discovery_of_notify h]
    refine iff_of_true (hs.congr rfl (fun _ h ↦ ?_) (fun _ h ↦ h) fun _ h ↦ h) id
    rwa [hsearch]
  | playbackTask _ _ _ => exact absurd trivial ha
  | connect _ hne _ => exact absurd hne ha
  | _ => exact absurd trivial ha

/-- **What the main task is woken by.** Where it is stuck, a step of the rest of the program lets it
go on if and only if it is a result or the end of the search, a connection event, the return of the
data callback, or a notification, and the main task is where it waits for that. -/
theorem wakes_iff (h : machine.run (start arc) as = some s)
    (hstuck : ∀ b : PlayerAction, b.OfMain → s.step b = none) (hstep : s.step a = some t)
    (halive : t.alive = true) :
    (∃ b : PlayerAction, b.OfMain ∧ (t.step b).isSome) ↔ s.Wakes a := by
  have hs : s.Waits := waits_of_stuck h (alive_of_step hstep) hstuck
  have hrun : machine.run (start arc) (as ++ [a]) = some t :=
    machine.run_concat_eq_some_iff.2 ⟨s, h, hstep⟩
  have hwaits : t.Waits ↔ ¬ s.Wakes a :=
    waits_move_iff h hs (fun ha ↦ by simp [hstuck a ha] at hstep)
      (alive_eq_true_iff.1 halive).2.1.1 (move_of_step hstep)
  constructor
  · rintro ⟨b, hb, hsome⟩
    by_contra hno
    rw [stuck_of_waits hrun halive (hwaits.2 hno) b hb] at hsome
    cases hsome
  · intro hwakes
    by_contra hno
    refine hwaits.1 (waits_of_stuck hrun halive fun b hb ↦ ?_) hwakes
    by_contra hne
    exact hno ⟨b, hb, Option.isSome_iff_ne_none.2 hne⟩

/-- A data callback comes before there is a stream, and `play` comes to the guard meanwhile. -/
def guardHeld : List PlayerAction :=
  toSearch ++ [.gap namedHeadset (.ok ()), .loop, .loop, .loop, .loop, .returns, .main .run,
    .cancel (.ok ()), .connect .listen, .connect (.sourceConnect (.ok ())),
    .connect (.evt ⟨.connecting, 0⟩), .connect .resume, .connect .check, .connect .listen,
    .connect (.evt ⟨.connected, 0⟩), .connect .resume, .connect .check, .connect .finish,
    .returns, .play (.dataCb [0, 0] 2), .play .data,
    .play (.playbackTask ⟨true, true, [[5, 6]], false⟩ (.ok ()))]

/-- The main task is at the guard of `PLAY_STATE`, and the data callback holds it. -/
def atHeldGuard (s : Player) : Bool :=
  match s.main.pc, s.play.play, s.play.lock with
  | .playback _ .play, .lock _, some .data => true
  | _, _, _ => false

theorem waits_of_atHeldGuard (h : s.atHeldGuard = true) :
    s.Waits ∧ (∃ c, s.main.pc = .playback c .play) ∧ s.play.WaitsForGuard := by
  unfold atHeldGuard at h
  split at h
  next c n hpc hplay hlock =>
    have hguard : s.play.WaitsForGuard := ⟨⟨n, hplay⟩, hlock⟩
    refine ⟨?_, ⟨c, hpc⟩, hguard⟩
    rw [Waits, hpc]
    exact .inl hguard
  · cases h

/-- The main task waits for the guard, and the return of the data callback lets it go on. -/
theorem wakes_iff_guardHeld : ∃ s t, machine.run (start 0) guardHeld = some s ∧
    (∀ b : PlayerAction, b.OfMain → s.step b = none) ∧ s.step (.play .data) = some t ∧
      ∃ b : PlayerAction, b.OfMain ∧ (t.step b).isSome := by
  have hrun : (machine.run (start 0) guardHeld).bind (fun s ↦
      (s.step (.play .data)).map fun t ↦ (s.alive, s.atHeldGuard, t.alive)) =
        some (true, true, true) := by
    decide +kernel
  obtain ⟨s, hs, hmap⟩ := Option.bind_eq_some_iff.1 hrun
  obtain ⟨t, ht, heq⟩ := Option.map_eq_some_iff.1 hmap
  simp only [Prod.mk.injEq] at heq
  obtain ⟨halive, hguard, halive'⟩ := heq
  obtain ⟨hwaits, hpc⟩ := waits_of_atHeldGuard hguard
  have hstuck := stuck_of_waits hs halive hwaits
  exact ⟨s, t, hs, hstuck, ht, (wakes_iff hs hstuck ht halive').2 hpc⟩

end Player

end Esp32A2dpPlayer
