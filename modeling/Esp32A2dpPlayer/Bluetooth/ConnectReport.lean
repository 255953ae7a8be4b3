import Esp32A2dpPlayer.Bluetooth.A2dpConnect

/-!
# What `connect` reports

The waits of `connect` are triggered by events, and its checks read the latest state. Events may
coalesce between a wake-up and the check, and the state and the reason are updated by different
events. Still the two fields agree where it matters: a terminal state is the state of the last
event, and a terminal event records its reason along with it. So what `connect` returns is what
the last event before its deciding check says, and that event came after a CONNECTING one
(`connect_reports`). Nothing is asked of the order of the events.
-/

namespace Esp32A2dpPlayer

namespace A2dpConnect

/-- The events processed after the first `listen()`. -/
def heard : List ConnectAction → List ConnStat
  | [] => []
  | .listen :: as => events as
  | _ :: as => heard as

/-- What `connect` should return for its terminal event. -/
def report (d : ConnStat) : Except ConnectError Unit :=
  if d.state = .connected then .ok () else .error (.disconnected d.discRsn)

/-- The run decides on `d`: at its last check, `d` was the last event `connect` had heard, and a
CONNECTING event had come before it. -/
def DecidedBy (as : List ConnectAction) (d : ConnStat) : Prop :=
  ∃ as₁ as₂ es₁ c es₂, as = as₁ ++ .check :: as₂ ∧ .check ∉ as₂ ∧
    heard as₁ = es₁ ++ c :: (es₂ ++ [d]) ∧ c.state = .connecting ∧ d.state.Terminal

variable {s t : A2dpConnect} {as : List ConnectAction} {a : ConnectAction} {d : ConnStat}

/-! ### The history of events -/

theorem heard_eq_nil_of_not_mem (h : .listen ∉ as) : heard as = [] := by
  induction as with
  | nil => rfl
  | cons a as ih =>
    obtain ⟨ha, has⟩ : .listen ≠ a ∧ .listen ∉ as := by simpa using h
    cases a with
    | listen => exact absurd rfl ha
    | _ => exact ih has

theorem heard_concat_of_ne (ha : ∀ e, a ≠ .evt e) : heard (as ++ [a]) = heard as := by
  induction as with
  | nil => cases a <;> rfl
  | cons b as ih =>
    cases b with
    | listen => exact events_concat_of_ne ha
    | _ => exact ih

theorem heard_concat_evt {e : ConnStat} (h : .listen ∈ as) :
    heard (as ++ [.evt e]) = heard as ++ [e] := by
  induction as with
  | nil => simp at h
  | cons b as ih =>
    cases b with
    | listen => exact events_concat_evt
    | _ => exact ih (by simpa using h)

theorem DecidedBy.concat (h : DecidedBy as d) (ha : a ≠ .check) : DecidedBy (as ++ [a]) d := by
  obtain ⟨as₁, as₂, es₁, c, es₂, rfl, hcheck, hheard, hc, hd⟩ := h
  exact ⟨as₁, as₂ ++ [a], es₁, c, es₂, by simp, by simp [hcheck, ha.symm], hheard, hc, hd⟩

theorem DecidedBy.terminal (h : DecidedBy as d) : d.state.Terminal := by
  obtain ⟨-, -, -, -, -, -, -, -, -, hd⟩ := h
  exact hd

/-- The state is the one the last event has left, if there was one. -/
def Latest (es : List ConnStat) (state : ConnectionState) : Prop :=
  ∀ es' e, es = es' ++ [e] → state.state = e.state ∧
    (e.state.Terminal → state.disconnectReason = e.discRsn)

/-- An event of one of the four states becomes the latest. -/
theorem latest_of_evt {e : ConnStat} {state state' : ConnectionState} {es : List ConnStat}
    (h : processConnectionStateEvt e state = some state') : Latest (es ++ [e]) state' := by
  intro es' e' heq
  obtain ⟨-, he⟩ := List.append_inj' heq rfl
  obtain rfl := List.singleton_inj.1 he
  unfold processConnectionStateEvt at h
  split at h <;> cases h <;> simp_all [A2dConnectionState.Terminal]

/-! ### The invariant -/

/-- A CONNECTING event has been heard. -/
def HeardConnecting (es : List ConnStat) : Prop :=
  ∃ es₁ c es₂, es = es₁ ++ c :: es₂ ∧ c.state = .connecting

theorem HeardConnecting.append {es : List ConnStat} (h : HeardConnecting es)
    (es' : List ConnStat) : HeardConnecting (es ++ es') := by
  obtain ⟨es₁, c, es₂, rfl, hc⟩ := h
  exact ⟨es₁, c, es₂ ++ es', by simp, hc⟩

/-- A state that says CONNECTING has it from the last event heard. -/
theorem Latest.heardConnecting {es : List ConnStat} {state : ConnectionState}
    (h : Latest es state) (hne : es ≠ []) (hconn : state.state = .connecting) :
    HeardConnecting es := by
  obtain ⟨es', e, heq⟩ := (List.eq_nil_or_concat es).resolve_left hne
  rw [List.concat_eq_append] at heq
  exact ⟨es', e, [], heq, (h es' e heq).1.symm.trans hconn⟩

/-- The decision about a terminal event is what it reports. -/
theorem decideResult_eq_report (hd : d.state.Terminal) :
    decideResult (some ⟨d.state, d.discRsn⟩) = .returned (report d) := by
  rcases hd with hdis | hcon
  · simp [decideResult, report, hdis]
  · simp [decideResult, report, hcon]

/-- What `connect` knows of the events at each of its points. -/
def Knows (as : List ConnectAction) (s : A2dpConnect) : Prop :=
  match s.pc with
  | .start => .listen ∉ as
  | .listened => s.connectionStateEvent.status () = .notified → heard as ≠ []
  | .awaitConnecting => s.connectionStateEvent.status () = .notified → heard as ≠ []
  | .checkConnecting => heard as ≠ []
  | .relisten => HeardConnecting (heard as)
  | .awaitTerminal => HeardConnecting (heard as)
  | .checkTerminal => HeardConnecting (heard as)
  | .decide resultOpt => ∃ d, DecidedBy as d ∧ resultOpt = some ⟨d.state, d.discRsn⟩
  | .returned result => ∃ d, DecidedBy as d ∧ result = report d
  | .panicked => False

/-- The invariant of the reports. -/
structure Reports (as : List ConnectAction) (s : A2dpConnect) : Prop where
  listens : s.pc ≠ .start → .listen ∈ as
  latest : Latest (heard as) s.connectionState
  knows : Knows as s

theorem reports_new (state : ConnectionState) : Reports [] (new state) where
  listens h := absurd rfl h
  latest := by simp [Latest, heard]
  knows := by simp [Knows, new]

/-- An event of one of the four states. -/
theorem Reports.evt {e : ConnStat} (hs : Reports as s) (he : ∀ code, e.state ≠ .other code)
    (h : s.step (.evt e) = some t) : Reports (as ++ [.evt e]) t := by
  obtain ⟨-, ⟨state, hstate, rfl⟩ | ⟨hnone, -⟩⟩ := step_evt_cases h
  · have hlistens : s.pc ≠ .start → heard (as ++ [.evt e]) = heard as ++ [e] :=
      fun hpc ↦ heard_concat_evt (hs.listens hpc)
    refine ⟨fun hpc ↦ List.mem_append_left _ (hs.listens hpc), ?_, ?_⟩
    · by_cases hmem : .listen ∈ as
      · rw [heard_concat_evt hmem]
        exact latest_of_evt hstate
      · rw [heard_eq_nil_of_not_mem (by simpa using hmem)]
        simp [Latest]
    · have hknows := hs.knows
      unfold Knows at hknows ⊢
      dsimp only
      cases hpc : s.pc with
      | start =>
        rw [hpc] at hknows
        simpa using hknows
      | listened | awaitConnecting =>
        rw [hlistens (by simp [hpc])]
        simp
      | checkConnecting =>
        rw [hlistens (by simp [hpc])]
        simp
      | relisten | awaitTerminal | checkTerminal =>
        rw [hpc] at hknows
        rw [hlistens (by simp [hpc])]
        exact hknows.append [e]
      | decide resultOpt | returned result =>
        rw [hpc] at hknows
        obtain ⟨d, hd, hresult⟩ := hknows
        exact ⟨d, hd.concat (by simp), hresult⟩
      | panicked =>
        rw [hpc] at hknows
        exact hknows
  · -- the callback panics at none of the four states
    unfold processConnectionStateEvt at hnone
    split at hnone <;> simp_all

theorem step_checkTerminal_action (ha : ∀ e, a ≠ .evt e) (h : s.step a = some t)
    (hpc : s.pc = .checkTerminal) : a = .check := by
  cases a <;> simp_all [step]

theorem step_decide_action {resultOpt : Option ConnectionState} (ha : ∀ e, a ≠ .evt e)
    (h : s.step a = some t) (hpc : s.pc = .decide resultOpt) : a = .finish := by
  cases a <;> simp_all [step]

/-- The deciding check: what it reads is the last event, and that is not the CONNECTING one. -/
theorem decidedBy_of_check (hlatest : Latest (heard as) s.connectionState)
    (hconn : HeardConnecting (heard as)) (hterm : s.connectionState.state.Terminal) :
    ∃ d, DecidedBy (as ++ [.check]) d ∧ s.connectionState = ⟨d.state, d.discRsn⟩ := by
  obtain ⟨es₁, c, es₂, heq, hc⟩ := hconn
  rcases List.eq_nil_or_concat es₂ with rfl | ⟨es₃, d, rfl⟩
  · obtain ⟨hstate, -⟩ := hlatest es₁ c heq
    exact absurd (hstate.trans hc) hterm.ne_connecting
  · rw [List.concat_eq_append] at heq
    obtain ⟨hstate, hreason⟩ := hlatest (es₁ ++ c :: es₃) d (by simp [heq])
    have hd : d.state.Terminal := hstate ▸ hterm
    refine ⟨d, ⟨as, [], es₁, c, es₃, rfl, by simp, heq, hc, hd⟩, ?_⟩
    rw [← hstate, ← hreason hd]

/-- The steps of `connect`. -/
theorem Reports.connect_step (hs : Reports as s) (ha : ∀ e, a ≠ .evt e)
    (hok : ∀ ret, a = .sourceConnect ret → ret = .ok ()) (h : s.step a = some t) :
    Reports (as ++ [a]) t := by
  obtain ⟨hlistens, hlatest, hknows⟩ := hs
  have hheard : heard (as ++ [a]) = heard as := heard_concat_of_ne ha
  have hmem (hpc : s.pc ≠ .start) : .listen ∈ as ++ [a] :=
    List.mem_append_left _ (hlistens hpc)
  rw [← hheard] at hlatest
  unfold Knows at hknows
  cases hpc : s.pc with
  | start =>
    obtain ⟨rfl, rfl⟩ := step_start ha h hpc
    exact ⟨fun _ ↦ by simp, hlatest, by simp [Knows, listen, WaitSet.register_status]⟩
  | listened =>
    rw [hpc] at hknows
    obtain ⟨-, rfl⟩ | ⟨code, rfl, rfl⟩ := step_listened ha h hpc
    · refine ⟨fun _ ↦ hmem (by simp [hpc]), hlatest, ?_⟩
      simpa only [Knows, hheard] using hknows
    · cases hok _ rfl
  | awaitConnecting =>
    rw [hpc] at hknows
    obtain ⟨hnotified, rfl⟩ := step_awaitConnecting ha h hpc
    refine ⟨fun _ ↦ hmem (by simp [hpc]), hlatest, ?_⟩
    simpa only [Knows, hheard] using hknows hnotified
  | checkConnecting =>
    rw [hpc] at hknows
    obtain ⟨hconn, rfl⟩ | ⟨-, rfl⟩ := step_checkConnecting ha h hpc
    · rw [← hheard] at hknows
      exact ⟨fun _ ↦ hmem (by simp [hpc]), hlatest, hlatest.heardConnecting hknows hconn⟩
    · exact ⟨fun _ ↦ hmem (by simp [hpc]), hlatest,
        by simp [Knows, listen, WaitSet.register_status]⟩
  | relisten =>
    rw [hpc, ← hheard] at hknows
    obtain rfl := step_relisten ha h hpc
    exact ⟨fun _ ↦ hmem (by simp [hpc]), hlatest, hknows⟩
  | awaitTerminal =>
    rw [hpc, ← hheard] at hknows
    obtain ⟨-, rfl⟩ := step_awaitTerminal ha h hpc
    exact ⟨fun _ ↦ hmem (by simp [hpc]), hlatest, hknows⟩
  | checkTerminal =>
    rw [hpc] at hknows
    obtain rfl : a = .check := step_checkTerminal_action ha h hpc
    obtain ⟨hterm, rfl⟩ | ⟨-, rfl⟩ := step_checkTerminal ha h hpc
    · refine ⟨fun _ ↦ hmem (by simp [hpc]), hlatest, ?_⟩
      rw [hheard] at hlatest
      obtain ⟨d, hd, hstate⟩ := decidedBy_of_check hlatest hknows hterm
      exact ⟨d, hd, congrArg some hstate⟩
    · rw [← hheard] at hknows
      exact ⟨fun _ ↦ hmem (by simp [hpc]), hlatest, hknows⟩
  | decide resultOpt =>
    rw [hpc] at hknows
    obtain ⟨d, hd, rfl⟩ := hknows
    obtain rfl : a = .finish := step_decide_action ha h hpc
    obtain rfl := step_decide ha h hpc
    refine ⟨fun _ ↦ hmem (by simp [hpc]), hlatest, ?_⟩
    simp only [Knows, decideResult_eq_report hd.terminal]
    exact ⟨d, hd.concat (by simp), rfl⟩
  | returned result => exact absurd hpc (step_returned ha h)
  | panicked =>
    rw [hpc] at hknows
    exact hknows.elim

theorem reports_of_run {state : ConnectionState}
    (hevents : ∀ e ∈ events as, ∀ code, e.state ≠ .other code)
    (haccepted : ∀ ret, .sourceConnect ret ∈ as → ret = .ok ())
    (hrun : machine.run (new state) as = some s) : Reports as s := by
  refine machine.run_invariant_of_allSteps (I := fun as s ↦ Reports as s)
    (C := fun _ a ↦ (∀ e, a = .evt e → ∀ code, e.state ≠ .other code) ∧
      ∀ ret, a = .sourceConnect ret → ret = .ok ()) (reports_new state) ?_ ?_ hrun
  · intro as s a t _ hs ⟨he, hok⟩ ht
    by_cases ha : ∃ e, a = .evt e
    · obtain ⟨e, rfl⟩ := ha
      exact hs.evt (he e rfl) ht
    · exact hs.connect_step (not_exists.1 ha) hok ht
  · rintro as₁ a as₂ t rfl -
    exact ⟨fun e he ↦ hevents e (mem_events (by simp [he])),
      fun ret hret ↦ haccepted ret (by simp [hret])⟩

/-- **What `connect` reports.** For any events of the four states, from any state and in any
order: what `connect` returns is what the last event it had heard at its deciding check says, a
CONNECTED or DISCONNECTED event that came after a CONNECTING one, both after its first
`listen()`. It decides on nothing else, and neither it nor the callback panics. -/
theorem connect_reports {state : ConnectionState}
    (hevents : ∀ e ∈ events as, ∀ code, e.state ≠ .other code)
    (haccepted : ∀ ret, .sourceConnect ret ∈ as → ret = .ok ())
    (hrun : machine.run (new state) as = some s) :
    (∀ result, s.pc = .returned result → ∃ d, DecidedBy as d ∧ result = report d) ∧
      (∀ resultOpt, s.pc = .decide resultOpt →
        ∃ result, resultOpt = some result ∧ result.state.Terminal) ∧
      s.pc ≠ .panicked := by
  have hknows := (reports_of_run hevents haccepted hrun).knows
  unfold Knows at hknows
  refine ⟨fun result hpc ↦ ?_, fun resultOpt hpc ↦ ?_, fun hpc ↦ ?_⟩
  · rw [hpc] at hknows
    exact hknows
  · rw [hpc] at hknows
    obtain ⟨d, hd, rfl⟩ := hknows
    exact ⟨_, rfl, hd.terminal⟩
  · rw [hpc] at hknows
    exact hknows

/-- The peer connects, then drops the connection before `connect` looks. -/
def droppedRun : List ConnectAction :=
  slowPeerRun ++ [.evt ⟨.disconnecting, 0⟩, .evt ⟨.disconnected, 8⟩, .resume, .check, .finish]

theorem connect_reports_dropped : ∃ s,
    machine.run (new ⟨.connected, 3⟩) droppedRun = some s ∧
      s.pc = .returned (.error (.disconnected 8)) ∧
      ∃ d, DecidedBy droppedRun d ∧ .error (.disconnected 8) = report d := by
  obtain ⟨s, hs, hpc⟩ : ∃ s, machine.run (new ⟨.connected, 3⟩) droppedRun = some s ∧
    s.pc = .returned (.error (.disconnected 8)) := ⟨_, rfl, rfl⟩
  exact ⟨s, hs, hpc, (connect_reports (by simp [droppedRun, slowPeerRun, events])
    (by simp [droppedRun, slowPeerRun]) hs).1 _ hpc⟩

end A2dpConnect

end Esp32A2dpPlayer
