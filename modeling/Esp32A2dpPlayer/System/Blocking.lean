import Esp32A2dpPlayer.System.Failures

/-!
# Where the parts cannot go on

The discovery loop awaits a receiver, `connect` a listener, and `play` a guard and then a listener,
and the callbacks have a hand in all of them. Each part gets two lemmas: where it can take no step,
and what a step of the callbacks and the threads does to that.

* The loop stands still at an empty channel that is open (`loopStep_eq_none_iff`). A result of the
  search lets it go on, and so does the end of the search (`idle_gap_iff`).
* `connect` stands still at its listener (`A2dpConnect.step_eq_none_iff`). Each connection event
  lets it go on, whatever the state it brings (`not_waits_of_evt`): `connect` looks at the state
  afterwards.
* `play` stands still at the guard of `PLAY_STATE`, which the data callback may hold though it has
  no stream to read from, and at its listener (`A2dpPlay.step_eq_none_iff`). At the guard the return
  of the data callback lets it go on, at the listener the `notify` of a completion
  (`A2dpPlay.waits_move_iff`).

What makes these lists complete is that a listener is registered wherever it is awaited (`Listens`
of `connect`, `Placed` of the first `play`). A mutex of `std` is held within one step, so that it
keeps nobody waiting.
-/

namespace Esp32A2dpPlayer

/-! ### The search -/

namespace DiscoveryLoop

variable {s : DiscoveryLoop}

/-- The channel is open, and everything in it has been received. -/
def Idle (s : DiscoveryLoop) : Prop := s.channel.closed = false ∧ s.pending = []

/-- **Where the loop cannot go on**: at an empty queue, behind its end, or after a panic. -/
theorem loopStep_eq_none_iff (hs : s.Watched) : s.loopStep = none ↔
    (s.pc = .recv ∧ s.Idle) ∨ s.pc = .ended ∨ ∃ p, s.pc = .panicked p := by
  obtain ⟨inTime, hinv⟩ := hs.inv
  rw [Idle]
  rcases hpc : s.pc with - | - | dev | - | - | p
  · simp only [loopStep, hpc]
    split <;> simp
  · have hle : s.taken ≤ s.channel.sent.length := BroadcastChannel.le_of_position hinv.active
    have hpending : s.pending = [] ↔ s.channel.sent.length ≤ s.taken := List.drop_eq_nil_iff
    rcases hm : s.channel.sent[s.taken]? with - | dev
    · have hlen := le_antisymm hle (List.getElem?_eq_none_iff.1 hm)
      have hrecv := BroadcastChannel.recv_of_eq (hlen ▸ hinv.active)
      rcases hclosed : s.channel.closed with - | -
      · rw [hclosed] at hrecv
        simp [loopStep, hpc, Discovery.recv_eq_none hrecv, hpending, hlen]
      · rw [hclosed] at hrecv
        simp [loopStep, hpc, Discovery.recv_eq_some hrecv]
    · obtain ⟨c, hc, -⟩ := BroadcastChannel.recv_of_lt hinv.active hm
      have hlt := (List.getElem?_eq_some_iff.1 hm).1
      simp [loopStep, hpc, Discovery.recv_eq_some hc, hpending, hlt]
  · simp only [loopStep, hpc]
    split
    · simp
    · split <;> simp
  · simp only [loopStep, hpc]
    split <;> simp
  · simp [loopStep, hpc]
  · simp [loopStep, hpc]

end DiscoveryLoop

/-- A result of the search, or its end. -/
def GapEvent.Wakes : GapEvent → Prop
  | .discRes _ _ | .discStateChanged .stopped => True
  | _ => False

namespace DiscoveryLoop

variable {s : DiscoveryLoop} {e : GapEvent}

/-- **What the loop is woken by** where it is at an empty queue. -/
theorem idle_gap_iff (hs : s.Watched) (hidle : s.Idle)
    (hpanic : (s.discovery.btAppGapCb e).panic = none) :
    Idle { s with discovery := s.discovery.btAppGapCb e } ↔ ¬ e.Wakes := by
  obtain ⟨inTime, hinv⟩ := hs.inv
  obtain ⟨hopen, hpending⟩ := hidle
  have hslot : s.discovery.discovery = some s.receiver.channel := by
    rw [hinv.slot, hopen]
    rfl
  rcases e with ⟨bda, props⟩ | - | - | code
  · refine iff_of_false ?_ (not_not_intro trivial)
    rintro ⟨-, hnil⟩
    rcases hdev : scannedDevice bda props with - | dev
    · simp [Discovery.btAppGapCb, hdev] at hpanic
    rcases hsend : (s.discovery.channels s.receiver.channel).tryBroadcast dev with err | c
    · simp [Discovery.btAppGapCb, Discovery.broadcastDevice, hdev, hslot, hsend] at hpanic
    have hchan : channel { s with discovery := s.discovery.btAppGapCb (.discRes bda props) } =
        c := by
      simp [channel, Discovery.btAppGapCb, Discovery.broadcastDevice, hdev, hslot, hsend]
    have hsend : s.channel.tryBroadcast dev = .ok c := hsend
    have htaken := taken_congr hchan (BroadcastChannel.position_of_tryBroadcast hsend)
    have hle : s.taken ≤ s.channel.sent.length := BroadcastChannel.le_of_position hinv.active
    rw [pending, hchan, htaken, (BroadcastChannel.sent_of_tryBroadcast hsend).1,
      List.drop_eq_nil_iff, List.length_append, List.length_singleton] at hnil
    omega
  · refine iff_of_false ?_ (not_not_intro trivial)
    rintro ⟨hclosed, -⟩
    have hchan : channel { s with
        discovery := s.discovery.btAppGapCb (.discStateChanged .stopped) } =
          s.channel.close.dropReceiver 0 := by
      simp [channel, Discovery.btAppGapCb, hslot]
    rw [hchan, BroadcastChannel.dropReceiver_closed rfl] at hclosed
    cases hclosed
  · exact iff_of_true ⟨hopen, hpending⟩ id
  · cases hpanic

end DiscoveryLoop

/-! ### The connection -/

namespace A2dpConnect

variable {s t : A2dpConnect} {a : ConnectAction}

/-- The listener of `connect` is registered where `connect` awaits it, and just before. -/
def Listens (s : A2dpConnect) : Prop :=
  s.pc = .listened ∨ s.pc = .awaitConnecting ∨ s.pc = .awaitTerminal →
    s.connectionStateEvent.status () ≠ .idle

/-- A new call of `connect` is not at a listener yet. -/
theorem listens_new {state : ConnectionState} : Listens (new state) := by
  simp [Listens, new]

/-- Where `connect` listens it registers. -/
theorem listens_listen {pc : ConnectPc} : (s.listen pc).Listens := fun _ ↦ by
  simp [listen, WaitSet.register_status]

/-- An event notifies the listener, or panics. -/
theorem Listens.evt {connState : ConnStat} (hs : s.Listens) (h : s.step (.evt connState) = some t) :
    t.Listens := by
  obtain ⟨-, ⟨state, -, rfl⟩ | ⟨-, rfl⟩⟩ := step_evt_cases h
  · exact fun hpc ↦ by simpa using hs hpc
  · simp [Listens]

/-- `connect` awaits a listener that it has registered. What it has been notified of it does not
await again. -/
theorem Listens.step (hs : s.Listens) (ha : ∀ connState, a ≠ .evt connState)
    (h : s.step a = some t) : t.Listens := by
  cases hpc : s.pc with
  | start =>
    obtain ⟨-, rfl⟩ := step_start ha h hpc
    exact listens_listen
  | listened =>
    obtain ⟨-, rfl⟩ | ⟨code, -, rfl⟩ := step_listened ha h hpc
    · exact fun _ ↦ hs (.inl hpc)
    · simp [Listens]
  | awaitConnecting =>
    obtain ⟨-, rfl⟩ := step_awaitConnecting ha h hpc
    simp [Listens]
  | checkConnecting =>
    obtain ⟨-, rfl⟩ | ⟨-, rfl⟩ := step_checkConnecting ha h hpc
    · simp [Listens]
    · exact listens_listen
  | relisten =>
    obtain rfl := step_relisten ha h hpc
    exact listens_listen
  | awaitTerminal =>
    obtain ⟨-, rfl⟩ := step_awaitTerminal ha h hpc
    simp [Listens]
  | checkTerminal =>
    obtain ⟨-, rfl⟩ | ⟨-, rfl⟩ := step_checkTerminal ha h hpc
    · simp [Listens]
    · simp [Listens]
  | decide resultOpt =>
    obtain rfl := step_decide ha h hpc
    unfold Listens decideResult
    cases resultOpt with
    | none => simp
    | some result => cases hresult : result.state <;> simp [hresult]
  | returned result => exact absurd hpc (step_returned ha h)
  | panicked => cases a <;> simp_all [A2dpConnect.step]

/-- Waiting for the next connection event. -/
def Waits (s : A2dpConnect) : Prop :=
  (s.pc = .awaitConnecting ∨ s.pc = .awaitTerminal) ∧
    s.connectionStateEvent.status () = .waiting

/-- **What `connect` is woken by** where it waits. -/
theorem not_waits_of_evt {connState : ConnStat} (h : s.step (.evt connState) = some t) :
    ¬ t.Waits := by
  rintro ⟨hawaits, hwaiting⟩
  obtain ⟨-, ⟨state, -, rfl⟩ | ⟨-, rfl⟩⟩ := step_evt_cases h
  · exact WaitSet.notifyAll_status_ne_waiting _ _ hwaiting
  · simp at hawaits

/-- **Where `connect` cannot go on**: where it waits for an event, or is through. -/
theorem step_eq_none_iff (hs : s.Listens) : (∀ a, (∀ connState, a ≠ .evt connState) →
    s.step a = none) ↔ s.Waits ∨ (∃ result, s.pc = .returned result) ∨ s.pc = .panicked := by
  constructor
  · intro h
    cases hpc : s.pc with
    | start => simpa [step, hpc] using h .listen (by simp)
    | listened => simpa [step, hpc] using h (.sourceConnect (.ok ())) (by simp)
    | awaitConnecting =>
      have hresume := h .resume (by simp)
      have hne := hs (.inr (.inl hpc))
      cases hstatus : s.connectionStateEvent.status () with
      | idle => exact absurd hstatus hne
      | waiting => exact .inl ⟨.inl hpc, hstatus⟩
      | notified => simp [step, hpc, hstatus] at hresume
    | awaitTerminal =>
      have hresume := h .resume (by simp)
      have hne := hs (.inr (.inr hpc))
      cases hstatus : s.connectionStateEvent.status () with
      | idle => exact absurd hstatus hne
      | waiting => exact .inl ⟨.inr hpc, hstatus⟩
      | notified => simp [step, hpc, hstatus] at hresume
    | checkConnecting | checkTerminal =>
      have hcheck := h .check (by simp)
      simp only [step, hpc] at hcheck
      split at hcheck <;> cases hcheck
    | relisten => simpa [step, hpc] using h .listen (by simp)
    | decide resultOpt => simpa [step, hpc] using h .finish (by simp)
    | returned result => exact .inr (.inl ⟨result, rfl⟩)
    | panicked => exact .inr (.inr rfl)
  · rintro (⟨hpc | hpc, hstatus⟩ | ⟨result, hpc⟩ | hpc) a ha
    all_goals
      cases a <;> simp_all [step]

end A2dpConnect

/-! ### Playing -/

/-- A step of `playback_task`, or the return of a call that it has made. -/
def PlayAction.OfTask : PlayAction → Prop
  | .playbackTask _ _ | .play | .mediaCtrl _ => True
  | _ => False

namespace A2dpPlay

variable {s t : A2dpPlay} {a : PlayAction} {n : ℕ}

/-- What a move does to `SRC_READY_CALL`: nothing, or one step of it. -/
theorem srcReadyCall_of_move (h : Move s a t) : t.srcReadyCall = s.srcReadyCall ∨
    ∃ b, s.srcReadyCall.step b = some t.srcReadyCall := by
  cases h with
  | listens _ hcall | resumes _ hcall | ready _ hcall _ | notReady _ hcall _ | takePanics _ hcall _
  | checkReturns _ hcall | acks _ hcall | notifies _ hcall => exact .inr ⟨_, hcall⟩
  | _ => exact .inl rfl

/-- What holds of the first play from its call to its return. -/
structure Placed (s : A2dpPlay) : Prop where
  before : ∀ n, s.play = .lock n ∨ s.play = .setStream n →
    s.playState = none ∧ s.srcReadyCall.caller n = .idle
  called : ∀ n, s.play = .doAndWait n → s.panicked = false →
    s.srcReadyCall.caller n = .idle ∨ s.srcReadyCall.Active n
  result : s.play = .idle → s.results ≠ []

/-- A `playback_task` that finds `PLAY_STATE` empty and nobody waiting for an answer. -/
theorem placed_of_playbackTask {file : OggFile} {spawn : Except Int32 Unit}
    (hstate : s.playState = none) (hcaller : ∀ i, s.srcReadyCall.caller i = .idle)
    (h : Move s (.playbackTask file spawn) t) : t.Placed := by
  cases h with
  | playbackTask _ => exact ⟨fun n _ ↦ ⟨hstate, hcaller n⟩, nofun, nofun⟩
  | spawnFails h =>
    exact ⟨fun n _ ↦ ⟨hstate, hcaller n⟩, by simp [h], fun _ ↦ by simp⟩
  | stream ha _ _ => simp at ha

/-- In `do_and_wait` there is no more to say than where the call of it is. -/
theorem placed_of_doAndWait (h : s.play = .doAndWait n)
    (hcaller : s.panicked = false → s.srcReadyCall.caller n = .idle ∨ s.srcReadyCall.Active n) :
    s.Placed := by
  refine ⟨by simp [h], fun m hm ↦ ?_, by simp [h]⟩
  rw [h] at hm
  cases hm
  exact hcaller

/-- Behind its return `play` has a result. -/
theorem placed_playReturns {r : Except PlayError Unit} : (s.playReturns r).Placed := by
  refine ⟨?_, ?_, fun _ ↦ ?_⟩
  all_goals simp [playReturns]

/-- The step lemma of the first play. -/
theorem Placed.move (hs : s.Placed) (ha : ∀ file spawn, a ≠ .playbackTask file spawn)
    (h : Move s a t) : t.Placed := by
  cases h with
  | playbackTask _ | spawnFails _ => exact absurd rfl (ha _ _)
  | @locks n h _ =>
    refine ⟨fun m hm ↦ ?_, nofun, nofun⟩
    obtain rfl : n = m := by simpa using hm
    exact hs.before n (.inl h)
  | @sets n h =>
    exact placed_of_doAndWait (n := n) rfl fun _ ↦ .inl (hs.before n (.inr h)).2
  | @listens n call h hcall =>
    obtain ⟨-, rfl⟩ := AsyncCall.step_listen_iff.1 hcall
    exact placed_of_doAndWait h fun _ ↦ .inr (.inl (Function.update_self ..))
  | @resumes n call h hcall =>
    obtain ⟨-, rfl⟩ := AsyncCall.step_resume_iff.1 hcall
    exact placed_of_doAndWait h fun _ ↦ .inr (.inr (.inr (Function.update_self ..)))
  | checks _ _ | ready _ _ _ => exact ⟨by simp, nofun, nofun⟩
  | notReady _ _ _ | started _ | startRefused _ => exact placed_playReturns
  | takePanics h _ _ => exact placed_of_doAndWait h nofun
  | @checkReturns n call ret h hcall =>
    obtain ⟨-, rfl⟩ := AsyncCall.step_runF_iff.1 hcall
    exact placed_of_doAndWait (n := n) rfl fun _ ↦ .inr (.inr (.inl (Function.update_self ..)))
  | acks _ hcall =>
    obtain ⟨-, rfl⟩ := AsyncCall.step_replace_iff.1 hcall
    exact ⟨hs.before, hs.called, hs.result⟩
  | notifies _ hcall =>
    obtain ⟨v, -, rfl⟩ := AsyncCall.step_notify_iff.1 hcall
    exact ⟨hs.before, hs.called, hs.result⟩
  | checkRefused _ | eventPanics _ _ | readPanics _ _ =>
    exact ⟨hs.before, fun _ _ ↦ nofun, hs.result⟩
  | _ => exact ⟨hs.before, hs.called, hs.result⟩

/-- Waiting for the guard of `PLAY_STATE`, which the data callback holds. -/
def WaitsForGuard (s : A2dpPlay) : Prop := (∃ n, s.play = .lock n) ∧ s.lock = some .data

/-- Waiting for an answer to the check. -/
def WaitsForAnswer (s : A2dpPlay) : Prop :=
  ∃ n, s.play = .doAndWait n ∧ s.srcReadyCall.caller n = .awaiting ∧
    s.srcReadyCall.event.status n = .waiting

/-- Waiting for one of the two callbacks. -/
def Waits (s : A2dpPlay) : Prop := s.WaitsForGuard ∨ s.WaitsForAnswer

/-- **Where `play` cannot go on**: where it waits for a callback, or is through. -/
theorem step_eq_none_iff (hs : s.Placed) (hguarded : Guarded s)
    (hlisteners : s.srcReadyCall.ListenersOk) (hpanic : s.panicked = false) :
    (s.step .play = none ∧ ∀ ret, s.step (.mediaCtrl ret) = none) ↔ s.Waits ∨ s.play = .idle := by
  simp only [step, hpanic, Bool.false_eq_true, ↓reduceIte]
  constructor
  · rintro ⟨hplay, hmedia⟩
    cases hpc : s.play with
    | idle => exact .inr rfl
    | lock n =>
      cases hlock : s.lock with
      | none => simp [playStep, hpc, hlock] at hplay
      | some party =>
        cases party with
        | play => exact (hpc ▸ hguarded.play.1 hlock : (PlayPc.lock n).HoldsLock).elim
        | data => exact .inl (.inl ⟨⟨n, hpc⟩, hlock⟩)
    | setStream n => simp [playStep, hpc] at hplay
    | checkSrcRdy n =>
      have hrefused := hmedia (.error 0)
      simp [mediaCtrl, hpc] at hrefused
    | start n =>
      have hrefused := hmedia (.error 0)
      simp [mediaCtrl, hpc] at hrefused
    | doAndWait n =>
      rw [playStep, hpc] at hplay
      -- of the places in `do_and_wait`, the await is the only one to stay at
      obtain hidle | hlistening | hawaiting | hresumed := hs.called n hpc hpanic
      · simp [hidle, AsyncCall.step] at hplay
      · simp [hlistening] at hplay
      · have hne := (hlisteners n).2 (.inr hawaiting)
        cases hstatus : s.srcReadyCall.event.status n with
        | idle => exact absurd hstatus hne
        | waiting => exact .inl (.inr ⟨n, hpc, hawaiting, hstatus⟩)
        | notified => simp [hawaiting, AsyncCall.step, hstatus] at hplay
      · cases hresult : s.srcReadyCall.result <;> simp [hresumed, AsyncCall.step, hresult] at hplay
  · rintro ((⟨⟨n, hpc⟩, hlock⟩ | ⟨n, hpc, hcaller, hstatus⟩) | hidle)
    · simp [playStep, mediaCtrl, hpc, hlock]
    · simp [playStep, mediaCtrl, hpc, hcaller, AsyncCall.step, hstatus]
    · simp [playStep, mediaCtrl, hidle]

/-- `play` waits for one thing at a time. -/
theorem WaitsForGuard.not_waitsForAnswer (h : s.WaitsForGuard) : ¬ s.WaitsForAnswer := by
  obtain ⟨⟨n, hlock⟩, -⟩ := h
  rintro ⟨m, hcall, -⟩
  rw [hlock] at hcall
  cases hcall

/-- What wakes `play`: the return of the data callback, or the notification of a completion. -/
def Wakes (s : A2dpPlay) : PlayAction → Prop
  | .data => s.WaitsForGuard
  | .notify => s.WaitsForAnswer
  | _ => False

/-- Before the first stream is in place, a callback that holds the guard has none to read from. -/
theorem Placed.data_eq_noStream {files : List OggFile} (hs : s.Placed)
    (hdelivers : Delivers files s) (hwaits : s.WaitsForGuard) :
    ∃ buf len, s.data = .noStream buf len := by
  obtain ⟨⟨n, hplay⟩, hlock⟩ := hwaits
  have hholds := hdelivers.guarded.data.1 hlock
  have hsound := hdelivers.data
  rw [(hs.before n (.inl hplay)).1] at hsound
  cases hdata : s.data with
  | idle => exact (hdata ▸ hholds : DataPc.idle.HoldsLock).elim
  | lock buf len => exact (hdata ▸ hholds : (DataPc.lock buf len).HoldsLock).elim
  | read m buf len =>
    rw [hdata] at hsound
    cases hsound.1
  | noStream buf len => exact ⟨buf, len, rfl⟩

/-- **What `play` is woken by** at the guard. -/
theorem waits_move_iff_of_guard {files : List OggFile} (hs : s.Placed)
    (hdelivers : Delivers files s) (hwaits : s.WaitsForGuard) (ha : ¬ a.OfTask)
    (h : Move s a t) : t.Waits ↔ a ≠ .data := by
  obtain ⟨buf, len, hdata⟩ := hs.data_eq_noStream hdelivers hwaits
  cases h with
  | playbackTask _ | spawnFails _ | locks _ _ | sets _ | listens _ _ | checks _ _ | resumes _ _
  | ready _ _ _ | notReady _ _ _ | takePanics _ _ _ | checkReturns _ _ | checkRefused _
  | started _ | startRefused _ => exact absurd trivial ha
  | noStreamReturns _ =>
    refine iff_of_false ?_ (by simp)
    obtain ⟨⟨n, hplay⟩, -⟩ := hwaits
    rintro (⟨-, hlock⟩ | ⟨m, hcall, -⟩)
    · cases hlock
    · rw [show s.play = _ from hcall] at hplay
      cases hplay
  | noStream h _ _ | callRead h _ _ | readStep h _ | readReturns h _ _ | readPanics h _ =>
    rw [hdata] at h
    cases h
  | stream hb _ _ =>
    obtain ⟨rfl, -⟩ | ⟨p, rfl, -⟩ := hb
    · exact iff_of_true (.inl hwaits) (by simp)
    · exact iff_of_true (.inl hwaits) (by simp)
  | _ => exact iff_of_true (.inl hwaits) (by simp)

/-- **What `play` is woken by** at its listener. -/
theorem waits_move_iff_of_answer (hwaits : s.WaitsForAnswer) (ha : ¬ a.OfTask)
    (h : Move s a t) : t.Waits ↔ a ≠ .notify := by
  obtain ⟨n, hplay, hcaller, hwaiting⟩ := hwaits
  cases h with
  | playbackTask _ | spawnFails _ | locks _ _ | sets _ | listens _ _ | checks _ _ | resumes _ _
  | ready _ _ _ | notReady _ _ _ | takePanics _ _ _ | checkReturns _ _ | checkRefused _
  | started _ | startRefused _ => exact absurd trivial ha
  | acks _ hcall =>
    obtain ⟨-, rfl⟩ := AsyncCall.step_replace_iff.1 hcall
    exact iff_of_true (.inr ⟨n, hplay, hcaller, hwaiting⟩) (by simp)
  | notifies _ hcall =>
    obtain ⟨v, -, rfl⟩ := AsyncCall.step_notify_iff.1 hcall
    refine iff_of_false ?_ (by simp)
    rintro (⟨⟨m, hlock⟩, -⟩ | ⟨m, -, -, hstill⟩)
    · rw [show s.play = _ from hlock] at hplay
      cases hplay
    · exact WaitSet.notifyAll_status_ne_waiting _ _ hstill
  | stream hb _ _ =>
    obtain ⟨rfl, -⟩ | ⟨p, rfl, -⟩ := hb
    · exact iff_of_true (.inr ⟨n, hplay, hcaller, hwaiting⟩) (by simp)
    · exact iff_of_true (.inr ⟨n, hplay, hcaller, hwaiting⟩) (by simp)
  | _ => exact iff_of_true (.inr ⟨n, hplay, hcaller, hwaiting⟩) (by simp)

/-- **What `play` is woken by** where it waits. -/
theorem waits_move_iff {files : List OggFile} (hs : s.Placed) (hdelivers : Delivers files s)
    (hwaits : s.Waits) (ha : ¬ a.OfTask) (h : Move s a t) : t.Waits ↔ ¬ s.Wakes a := by
  obtain hguard | hanswer := hwaits
  · rw [waits_move_iff_of_guard hs hdelivers hguard ha h]
    have hno := hguard.not_waitsForAnswer
    cases a <;> simp [Wakes, hguard, hno]
  · rw [waits_move_iff_of_answer hanswer ha h]
    have hno : ¬ s.WaitsForGuard := fun hguard ↦ hguard.not_waitsForAnswer hanswer
    cases a <;> simp [Wakes, hanswer, hno]

end A2dpPlay

end Esp32A2dpPlayer
