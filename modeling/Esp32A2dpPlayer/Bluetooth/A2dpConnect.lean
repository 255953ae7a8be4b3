import Esp32A2dpPlayer.Concurrency.StepMachine
import Esp32A2dpPlayer.Concurrency.WaitSet
import Mathlib.Data.List.Infix

/-!
# `ESP32A2DP::connect`

`connect` of `bluetooth_esp32_a2dp.rs` against the callback `process_connection_state_evt`. The
callback updates `CONNECTION_STATE` and notifies every registered listener in one critical
section; `connect` waits in two loops, first for CONNECTING, then for CONNECTED or DISCONNECTED,
and looks at the shared state after each wake-up.

The two loops register their listeners at different points. The first one registers again
**under the guard** of its check. The second one registers at its head, **after** the guard is
dropped. An event in that gap changes the state and wakes nobody, and since the state keeps only
the latest event, a terminal event that overtakes the first check is not recognised either.

## Main results

* `connect_not_stuck_iff`: an attempt of the stack (CONNECTING, then one terminal event) leaves
  `connect` waiting for good unless the terminal event finds it at the second await.
* `connect_stuck`: an attempt that does leave it waiting.
-/

namespace Esp32A2dpPlayer

/-- `esp_a2d_connection_state_t`. -/
inductive A2dConnectionState where
  | disconnected
  | connecting
  | connected
  | disconnecting
  /-- A value that is none of the four constants. -/
  | other (code : UInt32)
  deriving DecidableEq

/-- `ConnectionState`, the last event as the callback recorded it. -/
structure ConnectionState where
  state : A2dConnectionState
  disconnectReason : UInt32
  deriving DecidableEq

/-- `conn_stat` of `esp_a2d_cb_param_t`: what a connection state event carries. -/
structure ConnStat where
  state : A2dConnectionState
  discRsn : UInt32
  deriving DecidableEq

/-- CONNECTED or DISCONNECTED. -/
def A2dConnectionState.Terminal (state : A2dConnectionState) : Prop :=
  state = .disconnected ∨ state = .connected

instance (state : A2dConnectionState) : Decidable state.Terminal :=
  inferInstanceAs (Decidable (_ ∨ _))

theorem A2dConnectionState.Terminal.ne_connecting {state : A2dConnectionState}
    (h : state.Terminal) : state ≠ .connecting := by
  rintro rfl
  rcases h with h | h <;> cases h

/-- The update `process_connection_state_evt` makes under the lock; `none` is its panic. -/
def processConnectionStateEvt (connState : ConnStat) (state : ConnectionState) :
    Option ConnectionState :=
  match connState.state with
  | .connecting => some { state with state := connState.state }
  | .disconnected | .connected =>
    some { state with state := connState.state, disconnectReason := connState.discRsn }
  | .disconnecting => some { state with state := connState.state }
  | .other _ => none

/-- The errors `connect` returns. -/
inductive ConnectError where
  /-- `esp_a2d_source_connect` refused. -/
  | esp (code : Int32)
  /-- `anyhow!(result.disconnect_reason)`. -/
  | disconnected (reason : UInt32)

/-- Where `connect` stands. -/
inductive ConnectPc where
  | start
  /-- The first listener is registered, `esp_a2d_source_connect` has not been called. -/
  | listened
  /-- At `listener.await` of the first loop. -/
  | awaitConnecting
  /-- Woken in the first loop, before `CONNECTION_STATE.lock()`. -/
  | checkConnecting
  /-- At the head of the second loop, before its `listen()`. -/
  | relisten
  /-- At `listener.await` of the second loop. -/
  | awaitTerminal
  /-- Woken in the second loop, before `CONNECTION_STATE.lock()`. -/
  | checkTerminal
  /-- Past both loops. -/
  | decide (resultOpt : Option ConnectionState)
  | returned (result : Except ConnectError Unit)
  /-- A panic, which aborts the whole program. -/
  | panicked

/-- One call of `connect` and the statics it shares with the callback. -/
structure A2dpConnect where
  connectionState : ConnectionState
  connectionStateEvent : WaitSet Unit
  pc : ConnectPc

/-- The steps of `connect` and of the callback. -/
inductive ConnectAction where
  /-- `CONNECTION_STATE_EVENT.listen()` outside a guard. -/
  | listen
  /-- `esp_a2d_source_connect`, with what it returns. -/
  | sourceConnect (ret : Except Int32 Unit)
  /-- The await of a notified listener returns. -/
  | resume
  /-- The critical section that looks at `CONNECTION_STATE`. -/
  | check
  /-- `result_opt.unwrap()` and the final `match`. -/
  | finish
  /-- `process_connection_state_evt`. -/
  | evt (connState : ConnStat)

namespace A2dpConnect

/-- Before the call, with whatever earlier events left in `CONNECTION_STATE`. -/
def new (state : ConnectionState) : A2dpConnect where
  connectionState := state
  connectionStateEvent := .empty
  pc := .start

/-- The final `match` of `connect`. -/
def decideResult : Option ConnectionState → ConnectPc
  | none => .panicked
  | some result =>
    match result.state with
    | .connected => .returned (.ok ())
    | .disconnected => .returned (.error (.disconnected result.disconnectReason))
    | _ => .panicked

/-- The listener of `connect` has been registered. -/
def listen (s : A2dpConnect) (pc : ConnectPc) : A2dpConnect :=
  { s with connectionStateEvent := s.connectionStateEvent.register (), pc }

/-- One step of `connect` or of the callback. -/
def step (s : A2dpConnect) : ConnectAction → Option A2dpConnect
  | .listen =>
    match s.pc with
    | .start => some (s.listen .listened)
    | .relisten => some (s.listen .awaitTerminal)
    | _ => none
  | .sourceConnect ret =>
    match s.pc with
    | .listened =>
      match ret with
      | .ok _ => some { s with pc := .awaitConnecting }
      | .error code => some { s with pc := .returned (.error (.esp code)) }
    | _ => none
  | .resume =>
    match s.pc, s.connectionStateEvent.status () with
    | .awaitConnecting, .notified => some { s with
        connectionStateEvent := s.connectionStateEvent.remove ()
        pc := .checkConnecting }
    | .awaitTerminal, .notified => some { s with
        connectionStateEvent := s.connectionStateEvent.remove ()
        pc := .checkTerminal }
    | _, _ => none
  | .check =>
    match s.pc with
    | .checkConnecting =>
      if s.connectionState.state = .connecting then some { s with pc := .relisten }
      -- the guard is still held here
      else some (s.listen .awaitConnecting)
    | .checkTerminal =>
      if s.connectionState.state.Terminal then
        some { s with pc := .decide (some s.connectionState) }
      else some { s with pc := .relisten }
    | _ => none
  | .finish =>
    match s.pc with
    | .decide resultOpt => some { s with pc := decideResult resultOpt }
    | _ => none
  | .evt connState =>
    match s.pc with
    | .panicked => none
    | _ =>
      match processConnectionStateEvt connState s.connectionState with
      | some state => some { s with
          connectionState := state
          connectionStateEvent := s.connectionStateEvent.notifyAll }
      | none => some { s with pc := .panicked }

/-- `connect` and the callback as a machine. -/
def machine : StepMachine A2dpConnect ConnectAction := ⟨step⟩

variable {s t : A2dpConnect}

/-! ### What a step does -/

theorem step_evt_cases {connState : ConnStat} (h : s.step (.evt connState) = some t) :
    s.pc ≠ .panicked ∧
      ((∃ state, processConnectionStateEvt connState s.connectionState = some state ∧
          t = { s with
            connectionState := state
            connectionStateEvent := s.connectionStateEvent.notifyAll }) ∨
        (processConnectionStateEvt connState s.connectionState = none ∧
          t = { s with pc := .panicked })) := by
  rw [step] at h
  split at h
  · cases h
  next hpc =>
    refine ⟨hpc, ?_⟩
    split at h <;> simp_all

section ConnectStep

variable {a : ConnectAction} (ha : ∀ connState, a ≠ .evt connState) (h : s.step a = some t)

include ha h

theorem step_start (hpc : s.pc = .start) : a = .listen ∧ t = s.listen .listened := by
  cases a <;> simp_all [step]

theorem step_listened (hpc : s.pc = .listened) :
    (a = .sourceConnect (.ok ()) ∧ t = { s with pc := .awaitConnecting }) ∨
      ∃ code, a = .sourceConnect (.error code) ∧
        t = { s with pc := .returned (.error (.esp code)) } := by
  cases a with
  | sourceConnect ret => rcases ret with code | _ <;> simp_all [step]
  | _ => simp_all [step]

theorem step_awaitConnecting (hpc : s.pc = .awaitConnecting) :
    s.connectionStateEvent.status () = .notified ∧ t = { s with
      connectionStateEvent := s.connectionStateEvent.remove ()
      pc := .checkConnecting } := by
  cases a with
  | resume =>
    rw [step, hpc] at h
    split at h <;> simp_all
  | _ => simp_all [step]

theorem step_checkConnecting (hpc : s.pc = .checkConnecting) :
    (s.connectionState.state = .connecting ∧ t = { s with pc := .relisten }) ∨
      (s.connectionState.state ≠ .connecting ∧ t = s.listen .awaitConnecting) := by
  cases a with
  | check =>
    rw [step, hpc] at h
    dsimp only at h
    split at h <;> simp_all
  | _ => simp_all [step]

theorem step_relisten (hpc : s.pc = .relisten) : t = s.listen .awaitTerminal := by
  cases a <;> simp_all [step]

theorem step_awaitTerminal (hpc : s.pc = .awaitTerminal) :
    s.connectionStateEvent.status () = .notified ∧ t = { s with
      connectionStateEvent := s.connectionStateEvent.remove ()
      pc := .checkTerminal } := by
  cases a with
  | resume =>
    rw [step, hpc] at h
    split at h <;> simp_all
  | _ => simp_all [step]

theorem step_checkTerminal (hpc : s.pc = .checkTerminal) :
    (s.connectionState.state.Terminal ∧
        t = { s with pc := .decide (some s.connectionState) }) ∨
      (¬ s.connectionState.state.Terminal ∧ t = { s with pc := .relisten }) := by
  cases a with
  | check =>
    rw [step, hpc] at h
    dsimp only at h
    split at h <;> simp_all
  | _ => simp_all [step]

theorem step_decide {resultOpt : Option ConnectionState} (hpc : s.pc = .decide resultOpt) :
    t = { s with pc := decideResult resultOpt } := by
  cases a <;> simp_all [step]

theorem step_returned {result : Except ConnectError Unit} : s.pc ≠ .returned result := by
  intro hpc
  cases a <;> simp_all [step]

end ConnectStep

/-! ### One attempt of the stack -/

/-- The events the callback has processed. -/
def events (as : List ConnectAction) : List ConnStat :=
  as.filterMap fun
    | .evt connState => some connState
    | _ => none

/-- `esp_a2d_source_connect` has succeeded. -/
def Accepted (as : List ConnectAction) : Prop := .sourceConnect (.ok ()) ∈ as

/-- What the stack delivers for one attempt: nothing before `esp_a2d_source_connect` has
succeeded, then CONNECTING, then CONNECTED or DISCONNECTED, then nothing more. -/
structure Attempt (as : List ConnectAction) : Prop where
  order : ∃ c d : ConnStat, c.state = .connecting ∧ d.state.Terminal ∧ events as <+: [c, d]
  accepted : ∀ as₁ connState as₂, as = as₁ ++ .evt connState :: as₂ → Accepted as₁

/-- The terminal event has been processed, and `connect` waits for a notification. -/
def Stuck (as : List ConnectAction) (s : A2dpConnect) : Prop :=
  (∃ d ∈ events as, d.state.Terminal) ∧
    (s.pc = .awaitConnecting ∨ s.pc = .awaitTerminal) ∧
      s.connectionStateEvent.status () = .waiting

/-- A terminal event finds `connect` at its second await. -/
def TerminalHeard (s : A2dpConnect) (a : ConnectAction) : Prop :=
  ∀ d, a = .evt d → d.state.Terminal → s.pc = .awaitTerminal

variable {as : List ConnectAction} {a : ConnectAction}

@[simp] theorem events_concat_evt {connState : ConnStat} :
    events (as ++ [.evt connState]) = events as ++ [connState] := by
  simp [events]

theorem events_concat_of_ne (h : ∀ connState, a ≠ .evt connState) :
    events (as ++ [a]) = events as := by
  cases a <;> simp_all [events]

theorem Attempt.of_concat (h : Attempt (as ++ [a])) : Attempt as := by
  obtain ⟨⟨c, d, hc, hd, hpre⟩, hacc⟩ := h
  refine ⟨⟨c, d, hc, hd, ?_⟩, fun as₁ e as₂ heq ↦ hacc as₁ e (as₂ ++ [a]) (by simp [heq])⟩
  refine List.IsPrefix.trans ?_ hpre
  rw [events, events, List.filterMap_append]
  exact List.prefix_append _ _

theorem Attempt.append {bs : List ConnectAction} (hA : Attempt as)
    (hbs : ∀ connState, .evt connState ∉ bs) :
    events (as ++ bs) = events as ∧ Attempt (as ++ bs) := by
  induction bs using List.reverseRecOn with
  | nil => simpa using hA
  | append_singleton bs b ih =>
    have hb : ∀ connState, b ≠ .evt connState := by
      rintro e rfl
      exact hbs e (by simp)
    obtain ⟨hev, hA'⟩ := ih fun e he ↦ hbs e (List.mem_append_left _ he)
    rw [← List.append_assoc, events_concat_of_ne hb]
    refine ⟨hev, ⟨?_, fun as₁ e as₂ heq ↦ ?_⟩⟩
    · rw [events_concat_of_ne hb]
      exact hA'.order
    · obtain ⟨-, rfl⟩ | ⟨as₃, -, heq'⟩ := StepMachine.concat_eq_append_cons heq
      · exact absurd rfl (hb e)
      · exact hA'.accepted as₁ e as₃ heq'

theorem mem_events {e : ConnStat} (h : .evt e ∈ as) : e ∈ events as :=
  List.mem_filterMap.2 ⟨_, h, rfl⟩

/-- An attempt whose call of `esp_a2d_source_connect` comes first. -/
theorem Attempt.of_accepted (setup : List ConnectAction) {rest : List ConnectAction}
    {c d : ConnStat} (hc : c.state = .connecting) (hd : d.state.Terminal)
    (hsetup : events setup = []) (hrest : events rest <+: [c, d]) :
    Attempt (setup ++ .sourceConnect (.ok ()) :: rest) := by
  refine ⟨⟨c, d, hc, hd, ?_⟩, fun as₁ e as₂ heq ↦ ?_⟩
  · rwa [events, List.filterMap_append, ← events, hsetup, List.nil_append]
  · obtain ⟨cs, rfl, hcs⟩ | ⟨cs, rfl, hcs⟩ := List.append_eq_append_iff.1 heq
    · rcases cs with - | ⟨b, cs⟩
      · cases hcs
      · obtain ⟨rfl, -⟩ := List.cons.inj hcs
        simp [Accepted]
    · rcases cs with - | ⟨b, cs⟩
      · cases hcs
      · obtain ⟨rfl, -⟩ := List.cons.inj hcs
        have hmem : e ∈ events (as₁ ++ .evt e :: cs) := mem_events (by simp)
        simp [hsetup] at hmem

/-- Where `connect` can be while no event has been processed. -/
def Quiet (as : List ConnectAction) (s : A2dpConnect) : Prop :=
  (s.pc = .start ∧ ¬ Accepted as) ∨
    (s.pc = .listened ∧ s.connectionStateEvent.status () = .waiting ∧ ¬ Accepted as) ∨
    (s.pc = .awaitConnecting ∧ s.connectionStateEvent.status () = .waiting) ∨
    ((∃ result, s.pc = .returned result) ∧ ¬ Accepted as)

/-- Where `connect` can be between the two events. -/
def Connecting (s : A2dpConnect) : Prop :=
  (s.pc = .awaitConnecting ∧ s.connectionStateEvent.status () = .notified) ∨
    s.pc = .checkConnecting ∨ s.pc = .relisten ∨
    (s.pc = .awaitTerminal ∧ s.connectionStateEvent.status () = .waiting)

/-- Where `connect` can be after a terminal event it has heard. -/
def Served (s : A2dpConnect) : Prop :=
  (s.pc = .awaitTerminal ∧ s.connectionStateEvent.status () = .notified) ∨
    s.pc = .checkTerminal ∨ s.pc = .decide (some s.connectionState) ∨
    ∃ result, s.pc = .returned result

/-- Where `connect` can be after a terminal event it has missed. -/
def Missed (s : A2dpConnect) : Prop :=
  (s.pc = .awaitConnecting ∧ s.connectionStateEvent.status () = .notified) ∨
    s.pc = .checkConnecting ∨
    (s.pc = .awaitConnecting ∧ s.connectionStateEvent.status () = .waiting) ∨
    s.pc = .relisten ∨
    (s.pc = .awaitTerminal ∧ s.connectionStateEvent.status () = .waiting)

/-- The phases of one attempt. `heard` says whether every terminal event so far has been
heard. -/
inductive Phase (as : List ConnectAction) (heard : Prop) (s : A2dpConnect) : Prop where
  | quiet (hev : events as = []) (hheard : heard) (hpc : Quiet as s)
  | connecting (c : ConnStat) (hev : events as = [c]) (hc : c.state = .connecting)
      (hheard : heard) (hstate : s.connectionState.state = .connecting)
      (hpc : Connecting s)
  | served (c d : ConnStat) (hev : events as = [c, d]) (hheard : heard)
      (hstate : s.connectionState.state.Terminal) (hpc : Served s)
  | missed (c d : ConnStat) (hev : events as = [c, d]) (hd : d.state.Terminal)
      (hheard : ¬ heard) (hstate : s.connectionState.state.Terminal) (hpc : Missed s)

theorem terminalHeard_of_ne (h : ∀ connState, a ≠ .evt connState) : TerminalHeard s a :=
  fun d hd ↦ absurd hd (h d)

/-- An accepted event is recorded and wakes the listener. -/
theorem step_evt_of_accepted {e : ConnStat} (he : e.state = .connecting ∨ e.state.Terminal)
    (h : s.step (.evt e) = some t) : t.connectionState.state = e.state ∧ t.pc = s.pc ∧
      t.connectionStateEvent = s.connectionStateEvent.notifyAll := by
  obtain ⟨-, ⟨state, hstate, rfl⟩ | ⟨hnone, -⟩⟩ := step_evt_cases h
  · refine ⟨?_, rfl, rfl⟩
    rcases he with he | he | he <;> simp only [processConnectionStateEvt, he] at hstate <;>
      rw [← Option.some.inj hstate] <;> exact he.symm
  · rcases he with he | he | he <;> simp [processConnectionStateEvt, he] at hnone

/-- The next event of an attempt. -/
theorem Attempt.next {e : ConnStat} (h : Attempt (as ++ [.evt e])) :
    (events as = [] ∧ e.state = .connecting) ∨
      ∃ c, events as = [c] ∧ e.state.Terminal := by
  obtain ⟨c, d, hc, hd, hpre⟩ := h.order
  rw [events_concat_evt] at hpre
  rcases hev : events as with - | ⟨c', - | ⟨d', l⟩⟩
  · rw [hev] at hpre
    obtain rfl : e = c := by simpa using hpre
    exact Or.inl ⟨rfl, hc⟩
  · rw [hev] at hpre
    obtain ⟨rfl, rfl⟩ : c' = c ∧ e = d := by simpa using hpre
    exact Or.inr ⟨c', rfl, hd⟩
  · have hlen := hpre.length_le
    simp [hev] at hlen

/-! ### The steps of `connect` within a phase -/

theorem quiet_of_step (hq : Quiet as s) (ha : ∀ connState, a ≠ .evt connState)
    (h : s.step a = some t) : Quiet (as ++ [a]) t := by
  obtain ⟨hpc, hno⟩ | ⟨hpc, hw, hno⟩ | ⟨hpc, hw⟩ | ⟨⟨_, hpc⟩, -⟩ := hq
  · obtain ⟨rfl, rfl⟩ := step_start ha h hpc
    exact Or.inr (Or.inl ⟨rfl, by simp [listen, WaitSet.register_status],
      by simpa [Accepted] using hno⟩)
  · obtain ⟨-, rfl⟩ | ⟨code, rfl, rfl⟩ := step_listened ha h hpc
    · exact Or.inr (Or.inr (Or.inl ⟨rfl, hw⟩))
    · exact Or.inr (Or.inr (Or.inr ⟨⟨_, rfl⟩, by simpa [Accepted] using hno⟩))
  · obtain ⟨hn, -⟩ := step_awaitConnecting ha h hpc
    simp [hw] at hn
  · exact absurd hpc (step_returned ha h)

theorem connecting_of_step (hstate : s.connectionState.state = .connecting)
    (hq : Connecting s) (ha : ∀ connState, a ≠ .evt connState) (h : s.step a = some t) :
    t.connectionState.state = .connecting ∧ Connecting t := by
  obtain ⟨hpc, -⟩ | hpc | hpc | ⟨hpc, hw⟩ := hq
  · obtain ⟨-, rfl⟩ := step_awaitConnecting ha h hpc
    exact ⟨hstate, Or.inr (Or.inl rfl)⟩
  · obtain ⟨-, rfl⟩ | ⟨hne, -⟩ := step_checkConnecting ha h hpc
    · exact ⟨hstate, Or.inr (Or.inr (Or.inl rfl))⟩
    · exact absurd hstate hne
  · obtain rfl := step_relisten ha h hpc
    exact ⟨hstate, Or.inr (Or.inr (Or.inr
      ⟨rfl, by simp [listen, WaitSet.register_status]⟩))⟩
  · obtain ⟨hn, -⟩ := step_awaitTerminal ha h hpc
    simp [hw] at hn

theorem served_of_step (hstate : s.connectionState.state.Terminal)
    (hq : Served s) (ha : ∀ connState, a ≠ .evt connState) (h : s.step a = some t) :
    t.connectionState.state.Terminal ∧ Served t := by
  obtain ⟨hpc, -⟩ | hpc | hpc | ⟨_, hpc⟩ := hq
  · obtain ⟨-, rfl⟩ := step_awaitTerminal ha h hpc
    exact ⟨hstate, Or.inr (Or.inl rfl)⟩
  · obtain ⟨-, rfl⟩ | ⟨hne, -⟩ := step_checkTerminal ha h hpc
    · exact ⟨hstate, Or.inr (Or.inr (Or.inl rfl))⟩
    · exact absurd hstate hne
  · obtain rfl := step_decide ha h hpc
    refine ⟨hstate, Or.inr (Or.inr (Or.inr ?_))⟩
    rcases hstate with hd | hd <;> simp [decideResult, hd]
  · exact absurd hpc (step_returned ha h)

theorem missed_of_step (hstate : s.connectionState.state.Terminal)
    (hq : Missed s) (ha : ∀ connState, a ≠ .evt connState) (h : s.step a = some t) :
    t.connectionState.state.Terminal ∧ Missed t := by
  obtain ⟨hpc, -⟩ | hpc | ⟨hpc, hw⟩ | hpc | ⟨hpc, hw⟩ := hq
  · obtain ⟨-, rfl⟩ := step_awaitConnecting ha h hpc
    exact ⟨hstate, Or.inr (Or.inl rfl)⟩
  · obtain ⟨hconn, -⟩ | ⟨-, rfl⟩ := step_checkConnecting ha h hpc
    · exact absurd hconn hstate.ne_connecting
    · exact ⟨hstate, Or.inr (Or.inr (Or.inl
        ⟨rfl, by simp [listen, WaitSet.register_status]⟩))⟩
  · obtain ⟨hn, -⟩ := step_awaitConnecting ha h hpc
    simp [hw] at hn
  · obtain rfl := step_relisten ha h hpc
    exact ⟨hstate, Or.inr (Or.inr (Or.inr (Or.inr
      ⟨rfl, by simp [listen, WaitSet.register_status]⟩)))⟩
  · obtain ⟨hn, -⟩ := step_awaitTerminal ha h hpc
    simp [hw] at hn

/-! ### From phase to phase -/

/-- An event takes an attempt to its next phase. -/
theorem phase_of_evt {heard : Prop} {e : ConnStat} (hs : Phase as heard s)
    (hA : Attempt (as ++ [.evt e])) (h : s.step (.evt e) = some t) :
    Phase (as ++ [.evt e]) (heard ∧ TerminalHeard s (.evt e)) t := by
  rcases hA.next with ⟨hev, he⟩ | ⟨c, hev, he⟩
  · obtain ⟨hstate, hpc, hevent⟩ := step_evt_of_accepted (Or.inl he) h
    have hacc := hA.accepted as e [] rfl
    cases hs with
    | quiet _ hheard hq =>
      refine .connecting e (by simp [hev]) he ⟨hheard, ?_⟩ (hstate.trans he) ?_
      · rintro d ⟨⟩ hd
        exact absurd he hd.ne_connecting
      · obtain ⟨-, hno⟩ | ⟨-, -, hno⟩ | ⟨hp, hw⟩ | ⟨-, hno⟩ := hq
        · exact absurd hacc hno
        · exact absurd hacc hno
        · exact Or.inl ⟨hpc.trans hp, by simp [hevent, hw]⟩
        · exact absurd hacc hno
    | connecting _ hev' => simp [hev] at hev'
    | served _ _ hev' => simp [hev] at hev'
    | missed _ _ hev' => simp [hev] at hev'
  · obtain ⟨hstate, hpc, hevent⟩ := step_evt_of_accepted (Or.inr he) h
    have hterm : t.connectionState.state.Terminal := hstate ▸ he
    cases hs with
    | quiet hev' => simp [hev] at hev'
    | connecting _ _ _ hheard _ hq =>
      -- the await of the second loop is the one place where the wake-up counts
      by_cases hp : s.pc = .awaitTerminal
      · refine .served c e (by simp [hev]) ⟨hheard, fun _ _ _ ↦ hp⟩ hterm ?_
        refine Or.inl ⟨hpc.trans hp, ?_⟩
        obtain ⟨hp', -⟩ | hp' | hp' | ⟨-, hw⟩ := hq
        · simp [hp] at hp'
        · simp [hp] at hp'
        · simp [hp] at hp'
        · simp [hevent, hw]
      · refine .missed c e (by simp [hev]) he (fun hh ↦ hp (hh.2 e rfl he)) hterm ?_
        obtain ⟨hp', hw⟩ | hp' | hp' | ⟨hp', -⟩ := hq
        · exact Or.inl ⟨hpc.trans hp', by simp [hevent, hw]⟩
        · exact Or.inr (Or.inl (hpc.trans hp'))
        · exact Or.inr (Or.inr (Or.inr (Or.inl (hpc.trans hp'))))
        · exact absurd hp' hp
    | served _ _ hev' => simp [hev] at hev'
    | missed _ _ hev' => simp [hev] at hev'

/-- The steps of `connect` stay in the phase. -/
theorem phase_of_connect_step {heard : Prop} (hs : Phase as heard s)
    (ha : ∀ connState, a ≠ .evt connState) (h : s.step a = some t) :
    Phase (as ++ [a]) (heard ∧ TerminalHeard s a) t := by
  have hev : events (as ++ [a]) = events as := events_concat_of_ne ha
  have hterm := terminalHeard_of_ne (s := s) ha
  cases hs with
  | quiet hev' hheard hq =>
    refine .quiet (hev.trans hev') ⟨hheard, hterm⟩ ?_
    exact quiet_of_step hq ha h
  | connecting c hev' hc hheard hstate hq =>
    obtain ⟨hstate', hq'⟩ := connecting_of_step hstate hq ha h
    exact .connecting c (hev.trans hev') hc ⟨hheard, hterm⟩ hstate' hq'
  | served c d hev' hheard hstate hq =>
    obtain ⟨hstate', hq'⟩ := served_of_step hstate hq ha h
    exact .served c d (hev.trans hev') ⟨hheard, hterm⟩ hstate' hq'
  | missed c d hev' hd hheard hstate hq =>
    obtain ⟨hstate', hq'⟩ := missed_of_step hstate hq ha h
    exact .missed c d (hev.trans hev') hd (fun hh ↦ hheard hh.1) hstate' hq'

theorem phase_of_run {state : ConnectionState} (hA : Attempt as)
    (h : machine.run (new state) as = some s) :
    Phase as (machine.AllSteps TerminalHeard (new state) as) s := by
  refine machine.run_invariant (I := fun as s ↦ Attempt as →
    Phase as (machine.AllSteps TerminalHeard (new state) as) s) (fun _ ↦ ?_) ?_ h hA
  · exact .quiet rfl .nil (Or.inl ⟨rfl, by simp [Accepted]⟩)
  · intro as s a t hs ih ht hA
    rw [StepMachine.allSteps_concat_iff hs]
    by_cases ha : ∃ e, a = .evt e
    · obtain ⟨e, rfl⟩ := ha
      exact phase_of_evt (ih hA.of_concat) hA ht
    · exact phase_of_connect_step (ih hA.of_concat) (not_exists.1 ha) ht

/-! ### No attempt is missed, exactly when -/

/-- Once missed, a terminal event leaves `connect` waiting. -/
theorem Missed.exists_stuck (hq : Missed s) (hstate : s.connectionState.state.Terminal)
    (hd : ∃ d ∈ events as, d.state.Terminal) :
    ∃ bs u, (∀ connState, .evt connState ∉ bs) ∧ machine.run s bs = some u ∧
      Stuck (as ++ bs) u := by
  have hmem : ∀ bs, ∃ d ∈ events (as ++ bs), d.state.Terminal := by
    obtain ⟨d, hd, hterm⟩ := hd
    exact fun bs ↦ ⟨d, by simp [events, List.filterMap_append] at hd ⊢; exact Or.inl hd, hterm⟩
  obtain ⟨hp, hw⟩ | hp | ⟨hp, hw⟩ | hp | ⟨hp, hw⟩ := hq
  · exact ⟨[.resume, .check], { s with
        connectionStateEvent := (s.connectionStateEvent.remove ()).register ()
        pc := .awaitConnecting }, by simp,
      by simp [machine, step, hp, hw, hstate.ne_connecting, listen],
      hmem _, Or.inl rfl, by simp [WaitSet.register_status]⟩
  · exact ⟨[.check], s.listen .awaitConnecting, by simp,
      by simp [machine, step, hp, hstate.ne_connecting],
      hmem _, Or.inl rfl, by simp [listen, WaitSet.register_status]⟩
  · exact ⟨[], s, by simp, rfl, hmem _, Or.inl hp, hw⟩
  · exact ⟨[.listen], s.listen .awaitTerminal, by simp, by simp [machine, step, hp],
      hmem _, Or.inr rfl, by simp [listen, WaitSet.register_status]⟩
  · exact ⟨[], s, by simp, rfl, hmem _, Or.inr hp, hw⟩

/-- **Which terminal events `connect` hears.** However it continues, a run of one attempt does
not leave `connect` waiting with the terminal event behind it if and only if each terminal event
of the run found `connect` at the await of its second loop. -/
theorem connect_not_stuck_iff {state : ConnectionState} (hA : Attempt as)
    (h : machine.run (new state) as = some s) :
    (∀ bs u, (∀ connState, .evt connState ∉ bs) →
        machine.run (new state) (as ++ bs) = some u → ¬ Stuck (as ++ bs) u) ↔
      machine.AllSteps TerminalHeard (new state) as := by
  constructor
  · intro hall
    cases phase_of_run hA h with
    | quiet _ hheard => exact hheard
    | connecting _ _ _ hheard => exact hheard
    | served _ _ _ hheard => exact hheard
    | missed c d hev hd _ hstate hq =>
      have hmem : ∃ d ∈ events as, d.state.Terminal := ⟨d, by simp [hev], hd⟩
      obtain ⟨bs, u, hbs, hrun, hstuck⟩ := hq.exists_stuck hstate hmem
      exact absurd hstuck
        (hall bs u hbs (machine.run_append_eq_some_iff.2 ⟨s, h, hrun⟩))
  · rintro hheard bs u hbs hrun ⟨⟨d, hd, hterm⟩, hpc, hw⟩
    obtain ⟨hev, hA'⟩ := hA.append hbs
    -- the steps added are steps of `connect`, so every terminal event is still heard
    have hheard' : machine.AllSteps TerminalHeard (new state) (as ++ bs) :=
      hheard.append fun b hb t ↦ terminalHeard_of_ne fun e he ↦ hbs e (he ▸ hb)
    cases phase_of_run hA' hrun with
    | quiet hev' => simp [hev'] at hd
    | connecting c hev' hc =>
      obtain rfl : d = c := by simpa [hev'] using hd
      exact hterm.ne_connecting hc
    | served _ _ _ _ _ hq =>
      obtain ⟨-, hn⟩ | hp | hp | ⟨_, hp⟩ := hq
      · simp [hn] at hw
      all_goals simp [hp] at hpc
    | missed _ _ _ _ hno => exact hno hheard'

/-- The slow peer: the terminal event comes while `connect` waits for it. -/
def slowPeerRun : List ConnectAction :=
  [.listen, .sourceConnect (.ok ()), .evt ⟨.connecting, 0⟩, .resume, .check, .listen,
    .evt ⟨.connected, 0⟩]

theorem connect_not_stuck_slowPeer : ∃ s,
    machine.run (new ⟨.disconnected, 0⟩) slowPeerRun = some s ∧
      ∀ bs u, (∀ connState, .evt connState ∉ bs) →
        machine.run (new ⟨.disconnected, 0⟩) (slowPeerRun ++ bs) = some u →
          ¬ Stuck (slowPeerRun ++ bs) u := by
  have hA : Attempt slowPeerRun :=
    Attempt.of_accepted [.listen] (c := ⟨.connecting, 0⟩) (d := ⟨.connected, 0⟩) rfl
      (Or.inr rfl) rfl (List.prefix_refl _)
  refine ⟨_, rfl, (connect_not_stuck_iff hA rfl).2 ?_⟩
  refine .cons ?_ rfl <| .cons ?_ rfl <| .cons ?_ rfl <| .cons ?_ rfl <| .cons ?_ rfl <|
    .cons ?_ rfl <| .cons ?_ rfl .nil
  case refine_3 =>
    rintro d ⟨⟩ hd
    exact absurd rfl hd.ne_connecting
  case refine_7 => exact fun _ _ _ ↦ rfl
  all_goals exact terminalHeard_of_ne (by simp)

/-- Both events reach the callback before `connect` has looked at the first. -/
def coalescedRun : List ConnectAction :=
  [.listen, .sourceConnect (.ok ()), .evt ⟨.connecting, 0⟩, .evt ⟨.connected, 0⟩, .resume,
    .check]

/-- `connect` misses terminal events. -/
theorem connect_stuck : ¬ ∀ (state : ConnectionState) (as : List ConnectAction)
    (s : A2dpConnect), Attempt as → machine.run (new state) as = some s → ¬ Stuck as s := by
  intro hall
  have hA : Attempt coalescedRun :=
    Attempt.of_accepted [.listen] (c := ⟨.connecting, 0⟩) (d := ⟨.connected, 0⟩) rfl
      (Or.inr rfl) rfl (List.prefix_refl _)
  refine hall ⟨.disconnected, 0⟩ coalescedRun _ hA rfl ⟨⟨⟨.connected, 0⟩, ?_, Or.inr rfl⟩,
    Or.inl rfl, rfl⟩
  simp [coalescedRun, events]

end A2dpConnect

end Esp32A2dpPlayer
