import Esp32A2dpPlayer.Concurrency.Reaches
import Esp32A2dpPlayer.Concurrency.Simulation
import Esp32A2dpPlayer.StateMachine.Script

/-!
# The one lap of the program

With the mutex as it is, the program makes exactly the sequences of driver calls of the script, each
call with its answer (`calls_eq_script`). In the one direction each step of the program is a step of
the script, or none. In the other the program is brought to the call that is pending: on its way
there it goes on by itself, makes no other call, and comes to a stop, which can be at that call only
(`OneLap.exists_atCall`).

The script has no way back. Playback does not get past its second lock, so Boot is never
returned, and a run is over after at most 27 steps, the polls of the Wifi connection aside: it
panics, or waits for its own lock (`single_lap`).
-/

namespace Esp32A2dpPlayer

namespace MainLoop

variable {s t : MainLoop} {a : MainAction}

/-! ### Where a run can stand -/

/-- At a driver call, which takes every answer that the script lets it have. -/
structure AtCall (s : MainLoop) (d : Driver) : Prop where
  call : s.pc.call = some d
  pending : s.pending = some d
  answered : ∀ a, (d.next a).isSome → (s.step false a).isSome

/-- A call that the program stands at can be answered. -/
theorem AtCall.exists_answer {d : Driver} (h : s.AtCall d) : ∃ a, (s.step false a).isSome := by
  have hd : d ≠ .nvsDeinit := by
    rintro rfl
    exact s.pending_ne_nvsDeinit h.pending
  obtain ⟨a, ha⟩ := Driver.exists_answer hd
  exact ⟨a, h.answered a ha⟩

/-- Past the last call. -/
def Over (s : MainLoop) : Prop :=
  s.pc = .panicked ∨ ∃ c, s.pc = .playback c .lockMachine

/-- Past the last call none is to come. -/
theorem Over.pending (h : s.Over) : s.pending = none := by
  rcases h with hpc | ⟨c, hpc⟩
  · simp only [MainLoop.pending, hpc]
  · simp only [MainLoop.pending, hpc, PlaybackPc.driver]

/-- The calls of WifiConnect. -/
theorem atCall_wifi {c : ConcreteState WifiConnect} {pc : WifiPc} (hpc : s.pc = .wifiConnect c pc)
    (hcall : pc.call = some pc.driver) : s.AtCall pc.driver := by
  refine ⟨by simp only [MainPc.call, hpc, hcall], by rw [MainLoop.pending, hpc], fun a ha ↦ ?_⟩
  cases pc with
  | takeModem | takeEventloop => cases hcall
  | new | setConfiguration | start | connect =>
    cases a with
    | call ret => simp [step, hpc, wifiStep]
    | _ => cases ha
  | isConnected =>
    cases a with
    | isConnected ret => rcases ret with code | - | - <;> simp [step, hpc, wifiStep]
    | _ => cases ha

/-- The calls of Playback. -/
theorem atCall_playback {c : ConcreteState Playback} {pc : PlaybackPc} {d : Driver}
    (hpc : s.pc = .playback c pc) (hcall : pc.call = some d) (hd : pc.driver = some d) :
    s.AtCall d := by
  refine ⟨by simp only [MainPc.call, hpc, hcall], by simp only [MainLoop.pending, hpc, hd],
    fun a ha ↦ ?_⟩
  cases pc with
  | sdInit | init | startDiscovery | cancel _ | connect _ =>
    cases hd
    cases a with
    | call ret => simp [step, hpc, playbackStep]
    | _ => cases ha
  | preInit =>
    cases hd
    cases a with
    | nvsInit calls => simp [step, hpc, playbackStep]
    | _ => cases ha
  | discover =>
    cases hd
    cases a with
    | discovered found => rcases found with - | dev <;> simp [step, hpc, playbackStep]
    | discoveryPanic => simp [step, hpc, playbackStep]
    | _ => cases ha
  | play =>
    cases hd
    cases a with
    | playbackTask ret => simp [step, hpc, playbackStep]
    | _ => cases ha
  | name _ => cases hcall
  | deinit | lockMachine | postDeinit => cases hd

/-- The program goes on by itself, or stands at a call, or is over. -/
theorem OneLap.cases (hs : OneLap s) :
    (∃ a, a.Silent ∧ (s.step false a).isSome) ∨ (∃ d, s.AtCall d) ∨ s.Over := by
  obtain ⟨ended, hlock⟩ := hs.lock
  have hguards := hlock.guards
  rcases hpc : s.pc with - | - | - | c | ⟨c, pc⟩ | ⟨c, pc⟩ | next | -
  case newLock | runLock =>
    rw [hpc] at hguards
    exact .inl ⟨.lock, trivial, by simp [step, hpc, canLock, hguards, MainPc.outside]⟩
  case execute | boot | finish => exact .inl ⟨.run, trivial, by simp [step, hpc]⟩
  case wifiConnect =>
    cases pc with
    | takeModem | takeEventloop =>
      refine .inl ⟨.run, trivial, ?_⟩
      simp only [step, hpc, wifiStep]
      split <;> rfl
    | _ => exact .inr (.inl ⟨_, atCall_wifi hpc rfl⟩)
  case playback =>
    cases pc with
    | name dev =>
      refine .inl ⟨.run, trivial, ?_⟩
      simp only [step, hpc, playbackStep]
      split <;> rfl
    | deinit => exact .inl ⟨.run, trivial, by simp [step, hpc, playbackStep]⟩
    | lockMachine => exact .inr (.inr (.inr ⟨c, hpc⟩))
    | postDeinit => exact absurd hpc (hlock.notPost c)
    | _ => exact .inr (.inl ⟨_, atCall_playback hpc rfl rfl⟩)
  case panicked => exact .inr (.inr (.inl hpc))

/-- Before a call the program gets there by itself, and makes no other call on the way. -/
theorem OneLap.exists_atCall {d : Driver} (hs : OneLap s) (hd : s.pending = some d) :
    ∃ as t, (machine false).run s as = some t ∧ (machine false).outputs driverCall s as = [] ∧
      OneLap t ∧ t.AtCall d := by
  obtain ⟨as, t, has, hrun, ⟨ht, hpending⟩, hquiet⟩ :=
    (machine false).exists_quiescent (A := MainAction.Silent)
      (I := fun u ↦ OneLap u ∧ u.pending = some d) rank
      (fun u a v ha ⟨hu, hud⟩ hv ↦ by
        have hcalls := (turn_of_step hu hv).calls
        rw [driverCall_eq_none ha hv, hud] at hcalls
        exact ⟨oneLap_of_step hu hv, (Option.some.inj hcalls).symm⟩)
      (fun u a v ha ⟨hu, _⟩ hv ↦ by
        have hrank := (turn_of_step hu hv).rank
        have hcost : a.pollCost = 0 := by
          cases a with
          | isConnected ret => cases ha
          | _ => rfl
        rwa [hcost] at hrank) ⟨hs, hd⟩
  refine ⟨as, t, hrun,
    StepMachine.outputs_eq_nil (fun _ _ _ ha hv ↦ driverCall_eq_none ha hv) has hrun, ht, ?_⟩
  obtain ⟨a, ha, hsome⟩ | ⟨d', hd'⟩ | hover := ht.cases
  · rw [show t.step false a = none from hquiet a ha] at hsome
    cases hsome
  · obtain rfl := Option.some.inj (hpending.symm.trans hd'.pending)
    exact hd'
  · rw [hover.pending] at hpending
    cases hpending

/-- A call of the script is one of the program, which is on its way to it. -/
theorem OneLap.exists_driverCall {call : DriverCall} {next : Option Driver} (hs : OneLap s)
    (hd : s.pending = some call.driver) (hnext : call.driver.next call.answer = some next) :
    ∃ as t, (machine false).run s as = some t ∧
      (machine false).outputs driverCall s as = [call] ∧ OneLap t ∧ t.pending = next := by
  obtain ⟨as, t, hrun, has, ht, hcall⟩ := hs.exists_atCall hd
  obtain ⟨u, hu⟩ := Option.isSome_iff_exists.1 (hcall.answered call.answer (by rw [hnext]; rfl))
  have hout : t.driverCall call.answer = some call := by
    rw [driverCall, hcall.call]
    rfl
  have hcalls := (turn_of_step ht hu).calls
  rw [hcall.pending, hout] at hcalls
  refine ⟨as ++ [call.answer], u, (machine false).run_concat_eq_some_iff.2 ⟨t, hrun, hu⟩, ?_,
    oneLap_of_step ht hu, ?_⟩
  · rw [StepMachine.outputs_concat _ _ hrun, has, hout]
    rfl
  · simpa [script, hnext] using hcalls.symm

/-! ### The calls and the end -/

variable {arc : MachineArc} {as : List MainAction}

/-- The run lemma of the lap. -/
theorem oneLap_of_run (h : (machine false).run (start arc) as = some s) : OneLap s :=
  (machine false).run_invariant (I := fun _ s ↦ OneLap s) (oneLap_start arc)
    (fun _ _ _ _ _ hs ht ↦ oneLap_of_step hs ht) h

/-- **The order of the calls.** The sequences of driver calls that runs of the program make, each
call with what it answers, are the sequences of the script, no more and no fewer. -/
theorem calls_eq_script (arc : MachineArc) (calls : List DriverCall) :
    (∃ as s, (machine false).run (start arc) as = some s ∧
      (machine false).outputs driverCall (start arc) as = calls) ↔
        ∃ d, script.run (some .wifiNew) calls = some d := by
  have hstart : OneLap (start arc) ∧ some Driver.wifiNew = (start arc).pending :=
    ⟨oneLap_start arc, rfl⟩
  constructor
  · rintro ⟨as, s, hrun, rfl⟩
    obtain ⟨d, hd, -⟩ := StepMachine.run_of_simulation (N := script) (f := driverCall)
      (R := fun s d ↦ OneLap s ∧ d = s.pending)
      (fun s a t d ⟨hs, hd⟩ ht ↦
        ⟨t.pending, hd ▸ (turn_of_step hs ht).calls, oneLap_of_step hs ht, rfl⟩) hstart hrun
    exact ⟨d, hd⟩
  · rintro ⟨d, hd⟩
    have hstep (s : MainLoop) (d : Option Driver) (call : DriverCall) (next : Option Driver)
        (hR : OneLap s ∧ d = s.pending) (hnext : script.step d call = some next) :
        ∃ as t, (machine false).run s as = some t ∧
          (machine false).outputs driverCall s as = [call] ∧ OneLap t ∧ next = t.pending := by
      obtain ⟨hs, rfl⟩ := hR
      obtain ⟨hd, hnext⟩ := Option.ite_none_right_eq_some.1 hnext
      obtain ⟨as, t, hrun, has, ht, hpending⟩ := hs.exists_driverCall hd hnext
      exact ⟨as, t, hrun, has, ht, hpending.symm⟩
    obtain ⟨as, s, hrun, has, -⟩ := StepMachine.run_of_realization hstep hstart hd
    exact ⟨as, s, hrun, has⟩

/-- **The only lap.** Whatever the drivers return, Boot is not returned and `post_deinit` is not
reached, a run has at most 27 steps besides its polls, and one that cannot go on has panicked or
waits for the lock that its own task holds. -/
theorem single_lap (h : (machine false).run (start arc) as = some s) :
    (∀ c, s.pc ≠ .finish (.boot c)) ∧ (∀ c, s.pc ≠ .playback c .postDeinit) ∧
      as.length ≤ 27 + (as.map MainAction.pollCost).sum ∧
      ((∀ a, s.step false a = none) → s.pc = .panicked ∨ s.OwnDeadlock) := by
  have hs := oneLap_of_run h
  obtain ⟨ended, hlock⟩ := hs.lock
  refine ⟨hs.onward, hlock.notPost, ?_, fun hstop ↦ ?_⟩
  · have hlen := StepMachine.run_length_le rank MainAction.pollCost
      (fun _ _ _ hs ht ↦ oneLap_of_step hs ht) (fun _ _ _ hs ht ↦ (turn_of_step hs ht).rank)
      (oneLap_start arc) h
    exact (Nat.le_add_left ..).trans hlen
  · have hnone (a : MainAction) : (s.step false a).isSome = false := by rw [hstop a]; rfl
    obtain ⟨a, -, ha⟩ | ⟨d, hd⟩ | hpanicked | ⟨c, hpc⟩ := hs.cases
    · exact absurd ha (by simp [hnone])
    · obtain ⟨a, ha⟩ := hd.exists_answer
      exact absurd ha (by simp [hnone])
    · exact .inl hpanicked
    · obtain ⟨bs, u, hbs, hrun, hdead⟩ :=
        hlock.exists_ownDeadlock (by rw [hpc]; trivial)
      rcases bs with - | ⟨b, bs⟩
      · cases hrun
        exact .inr hdead
      · rw [StepMachine.run_cons, show (machine false).step s b = none from hstop b] at hrun
        cases hrun

/-- The search times out, and the task waits for itself. -/
theorem single_lap_timeout :
    ∃ s, (machine false).run (start 0) (firstLap ++ [.discovered none, .run]) = some s ∧
      (∀ c, s.pc ≠ .finish (.boot c)) ∧ (s.pc = .panicked ∨ s.OwnDeadlock) := by
  have hlap (s : MainLoop)
      (hs : (machine false).run (start 0) (firstLap ++ [.discovered none, .run]) = some s) :=
    single_lap hs
  obtain ⟨honward, -, -, hstop⟩ := hlap _ rfl
  exact ⟨_, rfl, honward, hstop fun a ↦ by cases a <;> rfl⟩

end MainLoop

end Esp32A2dpPlayer
