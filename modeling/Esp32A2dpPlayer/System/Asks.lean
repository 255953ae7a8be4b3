import Esp32A2dpPlayer.System.Player

/-!
# What the parts ask of the stack

The commands of one call of `connect` and of one call of `play`, by where the call has come to:
`Asks log` says that these commands have been given so far. Of `connect` it is one, of `play` first
the check and then the start. A callback gives no command, so that it keeps `Asks` as it is.

`MainPc.phase` says how far the main task is with the whole: which of the parts it is in, or between
which, and with which device. `phase_of_step` says what its own steps do to that.
-/

namespace Esp32A2dpPlayer

/-! ### What `connect` asks -/

namespace A2dpConnect

variable {s t : A2dpConnect} {a : ConnectAction} {addr : BDAddr} {log : List StackCommand}

/-- What has been asked of the stack so far. -/
def Asks (addr : BDAddr) (log : List StackCommand) (s : A2dpConnect) : Prop :=
  match s.pc with
  | .start | .listened => log = []
  | .panicked => log = [] ∨ log = [.sourceConnect addr]
  | _ => log = [.sourceConnect addr]

/-- A connection event asks nothing. -/
theorem Asks.evt {connState : ConnStat} (hs : Asks addr log s)
    (h : s.step (.evt connState) = some t) : Asks addr log t := by
  obtain ⟨-, ⟨state, -, rfl⟩ | ⟨-, rfl⟩⟩ := step_evt_cases h
  · exact hs
  · unfold Asks at hs
    split at hs
    · exact .inl hs
    · exact .inl hs
    · exact hs
    · exact .inr hs

/-- The step lemma of `connect`: a step adds the command that it gives. -/
theorem Asks.step (hs : Asks addr log s) (ha : ∀ connState, a ≠ .evt connState)
    (h : s.step a = some t) : Asks addr (log ++ (a.command addr).toList) t := by
  -- a step elsewhere is not the call
  have hnone (hpc : s.pc ≠ .listened) (ht : Asks addr log t) :
      Asks addr (log ++ (a.command addr).toList) t := by
    have hcommand : a.command addr = none := by
      cases a with
      | sourceConnect ret =>
        simp [A2dpConnect.step] at h
      | _ => rfl
    rwa [hcommand, Option.toList_none, List.append_nil]
  unfold Asks at hs
  cases hpc : s.pc with
  | start =>
    rw [hpc] at hs
    obtain ⟨-, rfl⟩ := step_start ha h hpc
    exact hnone (by simp [hpc]) hs
  | listened =>
    rw [hpc] at hs
    obtain rfl : log = [] := hs
    obtain ⟨rfl, rfl⟩ | ⟨code, rfl, rfl⟩ := step_listened ha h hpc
    · exact rfl
    · exact rfl
  | awaitConnecting =>
    rw [hpc] at hs
    obtain ⟨-, rfl⟩ := step_awaitConnecting ha h hpc
    exact hnone (by simp [hpc]) hs
  | checkConnecting =>
    rw [hpc] at hs
    obtain ⟨-, rfl⟩ | ⟨-, rfl⟩ := step_checkConnecting ha h hpc
    · exact hnone (by simp [hpc]) hs
    · exact hnone (by simp [hpc]) hs
  | relisten =>
    rw [hpc] at hs
    obtain rfl := step_relisten ha h hpc
    exact hnone (by simp [hpc]) hs
  | awaitTerminal =>
    rw [hpc] at hs
    obtain ⟨-, rfl⟩ := step_awaitTerminal ha h hpc
    exact hnone (by simp [hpc]) hs
  | checkTerminal =>
    rw [hpc] at hs
    obtain ⟨-, rfl⟩ | ⟨-, rfl⟩ := step_checkTerminal ha h hpc
    · exact hnone (by simp [hpc]) hs
    · exact hnone (by simp [hpc]) hs
  | decide resultOpt =>
    rw [hpc] at hs
    obtain rfl := step_decide ha h hpc
    refine hnone (by simp [hpc]) ?_
    unfold Asks decideResult
    cases resultOpt with
    | none => exact .inr hs
    | some result =>
      dsimp only
      cases result.state with
      | disconnected | connected => exact hs
      | _ => exact .inr hs
  | returned result => exact absurd hpc (step_returned ha h)
  | panicked => cases a <;> simp_all [A2dpConnect.step]

end A2dpConnect

/-! ### What `play` asks -/

namespace A2dpPlay

variable {s t : A2dpPlay} {a : PlayAction}

/-- The commands that one `play` has given so far. -/
def Asks (log : List StackCommand) (s : A2dpPlay) : Prop :=
  match s.play with
  | .idle => log <+: [.checkSrcRdy, .mediaStart]
  | .lock n | .setStream n => log = [] ∧ s.srcReadyCall.caller n = .idle
  | .doAndWait n =>
    match s.srcReadyCall.caller n with
    | .idle | .listening => log = []
    | _ => log = [.checkSrcRdy]
  | .checkSrcRdy _ | .start _ => log = [.checkSrcRdy]

/-- What has been asked goes by where `play` is and where its call of `do_and_wait` is. -/
theorem Asks.congr {log : List StackCommand} (hs : Asks log s) (hplay : t.play = s.play)
    (hcaller : t.srcReadyCall.caller = s.srcReadyCall.caller) : Asks log t := by
  rwa [Asks, hplay, hcaller]

/-- The step lemma of `play`: a step adds the command that it gives. -/
theorem Asks.move {log : List StackCommand} (hs : Asks log s)
    (ha : ∀ file spawn, a ≠ .playbackTask file spawn) (h : Move s a t) :
    Asks (log ++ (s.command a).toList) t := by
  -- a step that gives no command
  have hnone (hcommand : s.command a = none) (ht : Asks log t) :
      Asks (log ++ (s.command a).toList) t := by
    rwa [hcommand, Option.toList_none, List.append_nil]
  cases h with
  | playbackTask _ | spawnFails _ => exact absurd rfl (ha _ _)
  | locks h hl =>
    simp only [Asks, h] at hs
    exact hnone (by simp [command, h]) hs
  | @sets n h =>
    simp only [Asks, h] at hs
    refine hnone (by simp [command, h]) ?_
    simp only [Asks, hs.2]
    exact hs.1
  | @listens n call h hcall =>
    obtain ⟨hidle, rfl⟩ := AsyncCall.step_listen_iff.1 hcall
    simp only [Asks, h, hidle] at hs
    refine hnone (by simp [command, h, hidle]) ?_
    simp only [Asks, h, Function.update_self]
    exact hs
  | checks h hlistening =>
    simp only [Asks, h, hlistening] at hs
    simp [Asks, command, h, hlistening, hs]
  | @resumes n call h hcall =>
    obtain ⟨⟨hawaiting, -⟩, rfl⟩ := AsyncCall.step_resume_iff.1 hcall
    simp only [Asks, h, hawaiting] at hs
    refine hnone (by simp [command, h, hawaiting]) ?_
    simp only [Asks, h, Function.update_self]
    exact hs
  | @ready n call v h hcall hv =>
    obtain ⟨hresumed, -⟩ := AsyncCall.step_take_iff.1 hcall
    simp only [Asks, h, hresumed] at hs
    exact hnone (by simp [command, h, hresumed]) hs
  | @notReady n call e h hcall hv =>
    obtain ⟨hresumed, -⟩ := AsyncCall.step_take_iff.1 hcall
    simp only [Asks, h, hresumed] at hs
    refine hnone (by simp [command, h, hresumed]) ?_
    simp [Asks, playReturns, hs]
  | @takePanics n call h hcall hv =>
    obtain ⟨hresumed, ⟨w, -, rfl⟩ | ⟨-, rfl⟩⟩ := AsyncCall.step_take_iff.1 hcall
    all_goals
      simp only [Asks, h, hresumed] at hs
      refine hnone (by simp [command, h, hresumed]) ?_
      simp only [Asks, h, Function.update_self]
      exact hs
  | @checkReturns n call ret h hcall =>
    obtain ⟨hlistening, rfl⟩ := AsyncCall.step_runF_iff.1 hcall
    simp only [Asks, h] at hs
    refine hnone (by simp [command, h]) ?_
    simp only [Asks, Function.update_self]
    exact hs
  | checkRefused h =>
    simp only [Asks, h] at hs
    refine hnone (by simp [command, h]) ?_
    simp only [Asks, h]
    exact hs
  | started h | startRefused h =>
    simp only [Asks, h] at hs
    simp [Asks, playReturns, command, h, hs]
  | acks h hcall =>
    obtain ⟨-, rfl⟩ := AsyncCall.step_replace_iff.1 hcall
    exact hnone rfl (hs.congr rfl rfl)
  | notifies h hcall =>
    obtain ⟨v, -, rfl⟩ := AsyncCall.step_notify_iff.1 hcall
    exact hnone rfl (hs.congr rfl rfl)
  | stream ha _ _ =>
    obtain ⟨rfl, -⟩ | ⟨p, rfl, -⟩ := ha
    · exact hnone rfl (hs.congr rfl rfl)
    · exact hnone rfl (hs.congr rfl rfl)
  | readStep h _ | readReturns h _ _ | readPanics h _ | noStream h _ _ | noStreamReturns h
  | callRead h _ _ | dataReturns _ _ _ | dataLocks _ _ _ | ignores _ _ | eventPanics _ _ =>
    exact hnone rfl (hs.congr rfl rfl)

/-- The start is commanded at one place. -/
theorem start_of_command (h : s.command a = some .mediaStart) : ∃ n, s.play = .start n := by
  unfold command at h
  split at h
  · split at h
    · split at h <;> cases h
    · cases h
  · split at h
    next n hn => exact ⟨n, hn⟩
    · cases h
  · cases h

/-- Between two calls of `playback_task` nothing is asked. -/
theorem idle_of_move (hidle : s.play = .idle) (ha : ∀ file spawn, a ≠ .playbackTask file spawn)
    (h : Move s a t) : t.play = .idle ∧ t.srcReadyCall.caller = s.srcReadyCall.caller ∧
      s.command a = none := by
  cases h with
  | playbackTask _ | spawnFails _ => exact absurd rfl (ha _ _)
  | locks h _ | sets h | listens h _ | checks h _ | resumes h _ | ready h _ _ | notReady h _ _
  | takePanics h _ _ | checkReturns h _ | checkRefused h | started h | startRefused h =>
    rw [hidle] at h
    cases h
  | acks h hcall =>
    obtain ⟨-, rfl⟩ := AsyncCall.step_replace_iff.1 hcall
    exact ⟨hidle, rfl, rfl⟩
  | notifies h hcall =>
    obtain ⟨v, -, rfl⟩ := AsyncCall.step_notify_iff.1 hcall
    exact ⟨hidle, rfl, rfl⟩
  | stream ha _ _ =>
    obtain ⟨rfl, -⟩ | ⟨p, rfl, -⟩ := ha
    · exact ⟨hidle, rfl, rfl⟩
    · exact ⟨hidle, rfl, rfl⟩
  | _ => exact ⟨hidle, rfl, rfl⟩

/-- Only a `playback_task` makes a stream. -/
theorem nextStream_of_move (ha : ∀ file spawn, a ≠ .playbackTask file spawn) (h : Move s a t) :
    t.nextStream = s.nextStream := by
  cases h with
  | playbackTask _ => exact absurd rfl (ha _ _)
  | _ => rfl

/-- A `playback_task` has asked nothing yet. -/
theorem asks_of_playbackTask {file : OggFile} {spawn : Except Int32 Unit}
    (hcaller : ∀ i, s.srcReadyCall.caller i = .idle) (h : Move s (.playbackTask file spawn) t) :
    Asks [] t ∧ t.nextStream ≤ s.nextStream + 1 := by
  cases h with
  | playbackTask _ => exact ⟨⟨rfl, hcaller _⟩, Nat.le_refl _⟩
  | spawnFails h =>
    refine ⟨?_, Nat.le_succ _⟩
    simp [Asks, h]
  | stream ha _ _ => simp at ha

end A2dpPlay

/-! ### Where the main task stands -/

/-- How far the main task is with its session. -/
inductive SessionPhase where
  | beforeSearch
  | search
  | found (dev : ScannedDevice)
  | cancel (dev : ScannedDevice)
  | connect (dev : ScannedDevice)
  | play
  /-- The task has panicked, or is on its way to its second lock. -/
  | ended

/-- The phase goes by the place in `execute` of Playback. What comes before the search, in whichever
state, is one phase, and so is what comes after the song. -/
def MainPc.phase : MainPc → SessionPhase
  | .playback _ .discover => .search
  | .playback _ (.name dev) => .found dev
  | .playback _ (.cancel dev) => .cancel dev
  | .playback _ (.connect dev) => .connect dev
  | .playback _ .play => .play
  | .playback _ .deinit | .playback _ .lockMachine | .playback _ .postDeinit | .panicked => .ended
  | _ => .beforeSearch

/-- What a step of the main task in none of the parts does to the phase. -/
theorem MainLoop.phase_of_step {s t : MainLoop} {a : MainAction} (hs : s.OneLap)
    (hpart : s.pc.inPart = false) (h : s.step false a = some t) :
    (s.pc.phase = .beforeSearch ∧ (t.pc.phase = .beforeSearch ∨ t.pc.phase = .ended)) ∨
      (∃ dev, s.pc.phase = .found dev ∧
        (t.pc.phase = .cancel dev ∧ dev.name.isSome ∨ t.pc.phase = .ended)) ∨
      s.pc.phase = .ended ∧ t.pc.phase = .ended := by
  -- an `unwrap` before the search goes on there, or panics
  have hunwrap {ε : Type} (u : MainLoop) (ret : Except ε Unit) {pc : MainPc}
      (hpc : pc.phase = .beforeSearch) :
      (u.unwrapTo ret pc).pc.phase = .beforeSearch ∨ (u.unwrapTo ret pc).pc.phase = .ended := by
    cases ret with
    | ok _ => exact .inl hpc
    | error _ => exact .inr rfl
  rcases hpc : s.pc with - | - | - | c | ⟨c, pc⟩ | ⟨c, pc⟩ | next | -
  case newLock | runLock =>
    cases a with
    | lock =>
      simp only [step, hpc] at h
      split at h <;> cases h
      exact .inl ⟨rfl, .inl rfl⟩
    | _ => simp [step, hpc] at h
  case execute =>
    cases a with
    | run =>
      simp only [step, hpc] at h
      cases h
      refine .inl ⟨rfl, ?_⟩
      rcases hst : s.stateMachine.state with - | st
      · exact .inr (by rw [execute, hst]; rfl)
      · cases st <;> exact .inl (by rw [execute, hst]; rfl)
    | _ => simp [step, hpc] at h
  case boot | finish =>
    cases a with
    | run =>
      simp only [step, hpc] at h
      cases h
      exact .inl ⟨rfl, .inl rfl⟩
    | _ => simp [step, hpc] at h
  case wifiConnect =>
    simp only [step, hpc] at h
    obtain ⟨-, -, ht | ⟨pc', ht⟩ | ht⟩ := wifiStep_cases h
    · exact .inl ⟨rfl, .inr (by rw [ht]; rfl)⟩
    · exact .inl ⟨rfl, .inl (by rw [ht]; rfl)⟩
    · exact .inl ⟨rfl, .inl (by rw [ht]; rfl)⟩
  case playback =>
    simp only [step, hpc] at h
    rw [hpc] at hpart
    cases pc with
    | startDiscovery | discover | cancel _ | connect _ | play => cases hpart
    | sdInit | init =>
      cases a with
      | call ret =>
        cases h
        exact .inl ⟨rfl, hunwrap _ ret rfl⟩
      | _ => cases h
    | preInit =>
      cases a with
      | nvsInit calls =>
        cases h
        exact .inl ⟨rfl, hunwrap _ _ rfl⟩
      | _ => cases h
    | name dev =>
      cases a with
      | run =>
        simp only [playbackStep] at h
        split at h <;> cases h
        next hname => exact .inr (.inl ⟨dev, rfl, .inl ⟨rfl, by rw [hname]; rfl⟩⟩)
        next => exact .inr (.inl ⟨dev, rfl, .inr rfl⟩)
      | _ => cases h
    | deinit =>
      obtain ⟨-, rfl⟩ := playbackStep_deinit h
      exact .inr (.inr ⟨rfl, rfl⟩)
    | lockMachine =>
      obtain ⟨-, -, rfl⟩ := playbackStep_lockMachine h
      exact .inr (.inr ⟨rfl, rfl⟩)
    -- behind the lock that the task holds itself
    | postDeinit =>
      obtain ⟨ended, hlock⟩ := hs.lock
      exact absurd hpc (hlock.notPost c)
  case panicked => simp [step, hpc] at h

end Esp32A2dpPlayer
