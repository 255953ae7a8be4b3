import Esp32A2dpPlayer.System.Failures
import Esp32A2dpPlayer.System.Session

/-!
# What the program does not survive

Every panic ends the program, and it has many: results are unwrapped, options are taken and
unwrapped, events have not been written for. `Aborts` lists the steps that panic, by what the stack
and the drivers answer and report, and `aborts_iff` says that the list is complete and that
everything on it does happen: in each state that is reached, a step ends the program if and only if
it is on the list.

What is not on the list is what the rest rests on. The state, the modem and the event loop are
there when they are taken, because there is one lap; the channel of the scan is neither closed nor
without a receiver when a result is broadcast, because the receiver in the slot stays there as long
as the sender; `panic!("Error waiting for discovery")` has no run; the answer to a check is in its
slot when it is taken, because one file is played; and the reader of a stream keeps within its
buffer.

The program begins behind `StateMachine::new`. What `main` unwraps before it (the peripherals, the
event loop and the NVS partition, each taken once) is not among its steps.
-/

namespace Esp32A2dpPlayer

namespace Player

variable {s t : Player} {a : PlayerAction} {as : List PlayerAction} {arc : MachineArc}

/-- A part returns an error, which `execute` unwraps. -/
def Refused (s : Player) : Prop :=
  (∃ c dev e, s.main.pc = .playback c (.connect dev) ∧ s.connect.pc = .returned (.error e)) ∨
    ∃ c e, s.main.pc = .playback c .play ∧ s.play.results.getLast? = some (.error e)

/-- The steps that end the program. -/
def Aborts (s : Player) : PlayerAction → Prop
  | .main a => a.Failed ∨ s.main.Unnamed
  | .startDiscovery ret => ∃ code, ret = .error code
  | .loop => ∃ dev, s.loop = .device dev ∧ dev.debug = none
  | .connect (.evt connState) => connState.Fails
  | .play a => a.Fails s.play
  | .returns => s.Refused
  | .gap e ret => e.Fails s.gap.discovery ret
  | .cancel _ | .connect _ | .gapNotify => False

/-- The program has ended where one of its parts has panicked. -/
theorem alive_eq_false_iff : s.alive = false ↔ s.main.pc = .panicked ∨
    (s.gap.discovery.panic ≠ none ∨ s.gap.panicked = true) ∨ (∃ p, s.loop = .panicked p) ∨
      s.connect.pc = .panicked ∨ s.play.panicked = true := by
  simp only [alive, Bool.and_eq_false_iff, Bool.not_eq_false', Option.isNone_eq_false_iff,
    Option.isSome_iff_ne_none, or_assoc]
  refine or_congr ?_ (or_congr_right (or_congr_right (or_congr ?_ (or_congr_left ?_))))
  · split <;> simp_all
  · split <;> simp_all
  · split <;> simp_all

/-- The program goes on where none of its parts has. -/
theorem alive_eq_true_iff : s.alive = true ↔ s.main.pc ≠ .panicked ∧
    (s.gap.discovery.panic = none ∧ s.gap.panicked = false) ∧ (∀ p, s.loop ≠ .panicked p) ∧
      s.connect.pc ≠ .panicked ∧ s.play.panicked = false := by
  rw [← Bool.not_eq_false, alive_eq_false_iff]
  simp only [ne_eq, not_or, not_not, not_exists, Bool.not_eq_true]

/-- What keeps the steps off the list from panicking. -/
structure Sound (s : Player) : Prop where
  scan : s.gap.discovery.discovery.isSome ∨ s.main.pc.phase = .search → s.search.Watched
  decided : s.connect.Decided
  call : s.play.srcReadyCall.OnlyCaller 0

/-- Before the first step there is no scan. -/
theorem sound_start : Sound (start arc) where
  scan h := by
    rcases h with h | h
    · cases h
    · cases h
  decided := A2dpConnect.decided_new
  call := AsyncCall.onlyCaller_new

/-- A step that leaves the scan alone and does not bring the main task to it. -/
theorem Sound.scan_of_eq (hs : s.Sound) (hsearch : t.search = s.search)
    (hphase : t.main.pc.phase = .search → s.main.pc.phase = .search)
    (h : t.gap.discovery.discovery.isSome ∨ t.main.pc.phase = .search) : t.search.Watched := by
  have hslot : t.gap.discovery.discovery = s.gap.discovery.discovery :=
    congrArg (fun l : DiscoveryLoop ↦ l.discovery.discovery) hsearch
  rw [hsearch]
  exact hs.scan (h.imp (fun hsome ↦ hslot ▸ hsome) hphase)

/-- The step lemma of what keeps the steps off the list from panicking. -/
theorem Sound.move (hrun : machine.run (start arc) as = some s) (hs : s.Sound) (h : Move s a t) :
    t.Sound := by
  have hguarded := A2dpPlay.guarded_of_run (play_of_run hrun)
  have hone := (stage_of_run hrun).session.1.nextStream
  -- there is one song
  have hcall {a : PlayAction} {play : A2dpPlay} (h : s.play.step a = some play) :
      play.srcReadyCall.OnlyCaller 0 := by
    refine A2dpPlay.onlyCaller_of_move hs.call (fun n hn ↦ ?_) (A2dpPlay.move_of_step h)
    have hnewest := hguarded.newest n hn
    omega
  cases h with
  | @main a main hpc h =>
    refine ⟨hs.scan_of_eq rfl fun hphase ↦ ?_, hs.decided, hs.call⟩
    have hphase : main.pc.phase = .search := hphase
    obtain ⟨-, ht | ht⟩ | ⟨dev, -, ⟨ht, -⟩ | ht⟩ | ⟨-, ht⟩ :=
      MainLoop.phase_of_step (known_of_run hrun).lap hpc h
    all_goals
      rw [ht] at hphase
      cases hphase
  | @starts c receiver discovery ret hpc h =>
    obtain ⟨-, -, hopen⟩ := Discovery.gapStartDiscovery_eq_ok_iff.1 h
    obtain ⟨rfl, rfl⟩ := Prod.ext_iff.1 hopen
    exact ⟨fun _ ↦ DiscoveryLoop.watched_start s.gap.discovery, hs.decided, hs.call⟩
  | @loop c l hpc h =>
    refine ⟨fun _ ↦ ?_, hs.decided, hs.call⟩
    exact (hs.scan (.inr (by rw [hpc]; rfl))).loop h
  | startFails _ _ | found _ _ | foundNone _ | connected _ _ | connectFails _ _ | played _ _ _
  | playFails _ _ _ =>
    exact ⟨hs.scan_of_eq rfl nofun, hs.decided, hs.call⟩
  | cancels _ => exact ⟨hs.scan_of_eq rfl nofun, A2dpConnect.decided_new, hs.call⟩
  | connectEvt h => exact ⟨hs.scan_of_eq rfl id, hs.decided.evt h, hs.call⟩
  | connect _ ha h => exact ⟨hs.scan_of_eq rfl id, (hs.decided.step ha h).1, hs.call⟩
  | playbackTask _ _ h | play _ h => exact ⟨hs.scan_of_eq rfl id, hs.decided, hcall h⟩
  | @gap e ret gap h =>
    obtain ⟨e, rfl, rfl⟩ | ⟨-, hgap⟩ := GapCallback.discovery_of_btAppGapCb h
    · refine ⟨fun hscan ↦ ?_, hs.decided, hs.call⟩
      exact (hs.scan (hscan.imp_left Discovery.isSome_of_btAppGapCb)).gap e
    · exact ⟨hs.scan_of_eq (by simp [search, hgap]) id, hs.decided, hs.call⟩
  | @gapNotify gap h =>
    have hgap := GapCallback.discovery_of_notify h
    exact ⟨hs.scan_of_eq (by simp [search, hgap]) id, hs.decided, hs.call⟩

/-- The run lemma of what keeps the steps off the list from panicking. -/
theorem sound_of_run (h : machine.run (start arc) as = some s) : s.Sound :=
  machine.run_invariant (I := fun _ s ↦ s.Sound) sound_start
    (fun _ _ _ _ hrun hs ht ↦ hs.move hrun (move_of_step ht)) h

/-- Only a program that goes on takes a step. -/
theorem alive_of_step (h : s.step a = some t) : s.alive = true := by
  by_contra hdead
  simp [step, hdead] at h

/-- Before the search there is no scan, so a start fails only if the stack refuses it. -/
theorem refused_of_gapStartDiscovery {c : ConcreteState Playback} {ret : Except Int32 Unit}
    {e : GapError} {d : Discovery} (hrun : machine.run (start arc) as = some s)
    (hpc : s.main.pc = .playback c .startDiscovery)
    (h : s.gap.discovery.gapStartDiscovery ret = (.error e, d)) : ∃ code, ret = .error code := by
  have hstage := stage_of_run hrun
  rw [hpc] at hstage
  have hslot : s.gap.discovery.discovery = none := by
    by_contra hne
    have hmem := (known_of_run hrun).slot (Option.isSome_iff_ne_none.2 hne)
    rw [hstage.1] at hmem
    cases hmem
  cases ret with
  | ok v => exact absurd ⟨hslot, rfl⟩ (Discovery.gapStartDiscovery_error h).2
  | error code => exact ⟨code, rfl⟩

/-- **What ends the program.** In each state that is reached, a step panics if and only if it is on
the list. -/
theorem aborts_iff (h : machine.run (start arc) as = some s) (hstep : s.step a = some t) :
    t.alive = false ↔ s.Aborts a := by
  have hs := sound_of_run h
  have hdelivers := A2dpPlay.delivers_of_run (play_of_run h)
  obtain ⟨hmain, ⟨hpanic, hgap⟩, hloop, hconnect, hplay⟩ :=
    alive_eq_true_iff.1 (alive_of_step hstep)
  rw [alive_eq_false_iff]
  cases move_of_step hstep with
  | main hpc hmove =>
    simpa [Aborts, hpanic, hgap, hloop, hconnect, hplay] using
      MainLoop.panicked_iff (known_of_run h).lap hpc hmove
  | @starts c receiver discovery ret hpc hstarts =>
    obtain ⟨-, rfl, hopen⟩ := Discovery.gapStartDiscovery_eq_ok_iff.1 hstarts
    obtain ⟨-, rfl⟩ : _ ∧ _ = discovery := Prod.ext_iff.1 hopen
    have hpanic' : (s.gap.discovery.openChannel 2).2.panic = none := hpanic
    simp [Aborts, setSearch, hpanic', hgap, hconnect, hplay]
  | startFails hpc hfails =>
    simpa [Aborts] using refused_of_gapStartDiscovery h hpc hfails
  | @loop c l hpc hmove =>
    have hwatched := hs.scan (.inr (by rw [hpc]; rfl))
    have hpanic' : l.discovery.panic = none := (DiscoveryLoop.panic_of_loopStep hmove).trans hpanic
    have hpanicked : (∃ p, l.pc = .panicked p) ↔ ∃ dev, s.loop = .device dev ∧ dev.debug = none :=
      DiscoveryLoop.panicked_of_loopStep_iff hwatched hmove
    simpa [Aborts, setSearch, hmain, hpanic', hgap, hconnect, hplay] using hpanicked
  | found hpc _ | foundNone hpc =>
    simp [Aborts, Refused, hpc, hpanic, hgap, hloop, hconnect, hplay]
  | cancels hpc => simp [Aborts, A2dpConnect.new, hpanic, hgap, hloop, hplay]
  | connectEvt hmove =>
    simpa [Aborts, hmain, hpanic, hgap, hloop, hplay] using A2dpConnect.panicked_of_evt_iff hmove
  | @connect c dev a connect hpc ha hmove =>
    have hne := (hs.decided.step ha hmove).2
    cases a with
    | evt e => exact absurd rfl (ha e)
    | _ => simp [Aborts, hmain, hpanic, hgap, hloop, hplay, hne]
  | connected hpc hreturned =>
    simp [Aborts, Refused, hpc, hreturned, hpanic, hgap, hloop, hplay]
  | connectFails hpc hreturned => simp [Aborts, Refused, hpc, hreturned]
  | playbackTask _ _ hmove | play _ hmove =>
    simpa [Aborts, hmain, hpanic, hgap, hloop, hconnect] using
      A2dpPlay.panicked_iff hs.call hdelivers hmove
  | played hpc _ hlast =>
    simp [Aborts, Refused, hpc, hlast, hpanic, hgap, hloop, hconnect, hplay]
  | playFails hpc _ hlast => simp [Aborts, Refused, hpc, hlast]
  | gap hmove =>
    have hscan : s.gap.discovery.discovery = none ∨ s.search.Watched := by
      rcases hslot : s.gap.discovery.discovery with - | chan
      · exact .inl rfl
      · exact .inr (hs.scan (.inl (by rw [hslot]; rfl)))
    have hdiscovery (e : GapEvent) : (s.gap.discovery.btAppGapCb e).panic ≠ none ↔
        e.Fails s.gap.discovery :=
      DiscoveryLoop.panic_of_btAppGapCb_iff (s := s.search) hscan hpanic
    simpa [Aborts, hmain, hloop, hconnect, hplay] using
      GapCallback.panicked_iff hdiscovery hpanic hgap hmove
  | gapNotify hmove =>
    simp [Aborts, GapCallback.discovery_of_notify hmove, GapCallback.panicked_of_notify hmove,
      hmain, hpanic, hgap, hloop, hconnect, hplay]

/-- A result of the search, of a device with nothing but an address. -/
def bareResult : PlayerAction := .gap (.discovery (.discRes (Vector.replicate 6 1) [])) (.ok ())

/-- Two results, each of which the loop has received and looked at. -/
def twoResults : List PlayerAction :=
  toSearch ++ [bareResult, .loop, .loop, .loop, bareResult, .loop, .loop, .loop]

/-- The third one ends the program. -/
theorem aborts_iff_twoResults : ∃ s t, machine.run (start 0) twoResults = some s ∧
    s.step bareResult = some t ∧ t.alive = false ∧ s.Aborts bareResult := by
  have hdead : (machine.run (start 0) twoResults).bind
      (fun s ↦ (s.step bareResult).map alive) = some false := by decide +kernel
  obtain ⟨s, hs, hmap⟩ := Option.bind_eq_some_iff.1 hdead
  obtain ⟨t, ht, halive⟩ := Option.map_eq_some_iff.1 hmap
  exact ⟨s, t, hs, ht, halive, (aborts_iff hs ht).1 halive⟩

end Player

end Esp32A2dpPlayer
