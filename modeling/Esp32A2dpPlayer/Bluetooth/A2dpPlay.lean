import Esp32A2dpPlayer.Audio.Abandoned
import Esp32A2dpPlayer.Audio.FileStream
import Esp32A2dpPlayer.Bluetooth.AsyncCall

/-!
# `ESP32A2DP::play`

Playing, from `playback_task` of `audio.rs` to the two callbacks of `bluetooth_esp32_a2dp.rs`.
Three tasks share the statics. `play` puts its stream into `PLAY_STATE`, asks the stack whether
the source is ready, waits for the answer through `SRC_READY_CALL` and has the media started. The
event callback `bt_app_a2d_cb` completes that call. The data callback `bt_app_a2d_data_cb` takes
samples from the stream in `PLAY_STATE`. It holds the guard to its end: until the read has
returned, or, where there is no stream, until it has said so.

Streams are numbered as they are made, and each one brings a decoding thread of its own, which
goes on when the next stream has taken its place. The parts are the machines they are elsewhere:
a stream is an `OggStream`, and `SRC_READY_CALL` is an `AsyncCall` whose callers are numbered by
the streams and whose completions by the acknowledgements.

The events of the connection are those of `A2dpConnect` and no concern of `play`.
-/

namespace Esp32A2dpPlayer

/-! ### The data callback -/

/-- `(len / 2) as usize`, how many samples there is room for. -/
def sliceLen (len : Int32) : ℕ := (len / 2).toInt.toNat

/-- `buffer_view_i16`: the memory at `buf` as samples. -/
def bufferViewI16 (buf : List UInt8) (len : Int32) : List Int16 :=
  samplesOf (buf.take (2 * sliceLen len))

/-- What `bt_app_a2d_data_cb` returns for what `stream.read` does. -/
def dataCbReturn {ε : Type} : Except ε ℕ → Int32
  | .ok count => .ofNat (count * 2)
  | .error _ => 0

/-- A call of `bt_app_a2d_data_cb` that has returned: the stream that was read, if one was, the
memory as the call left it, and the value returned. -/
structure DataResult where
  stream : Option ℕ
  len : Int32
  buf : List UInt8
  ret : Int32

/-- The bytes that the stack takes from the call. -/
def DataResult.bytes (r : DataResult) : List UInt8 := r.buf.take r.ret.toInt.toNat

/-! ### The media commands -/

/-- `esp_a2d_media_ctrl_t`. -/
inductive MediaCtrl where
  | checkSrcRdy
  | start
  | other (cmd : UInt32)
  deriving DecidableEq

/-- `esp_a2d_media_ctrl_ack_t`. -/
inductive MediaCtrlAck where
  | success
  | other (status : UInt32)
  deriving DecidableEq

/-- The events of `bt_app_a2d_cb`, those of the connection aside. -/
inductive A2dEvent where
  | audioState (state : UInt32)
  | audioCfg
  | mediaCtrlAck (cmd : MediaCtrl) (status : MediaCtrlAck)
  | profState
  | other (event : UInt32)

/-- How playing fails. -/
inductive PlayError where
  /-- `stream.start()`: the thread cannot be spawned. -/
  | spawn (code : Int32)
  | anyhow (msg : String)
  | esp (code : Int32)
  deriving DecidableEq

/-- The result that an acknowledgement of `CHECK_SRC_RDY` completes the call with. -/
def MediaCtrlAck.result : MediaCtrlAck → Except PlayError Unit
  | .success => .ok ()
  | .other status => .error (.anyhow ("Media error " ++ toString status))

/-! ### The tasks -/

/-- Who locks `PLAY_STATE`. -/
inductive PlayParty where
  | play
  | data
  deriving DecidableEq

/-- Where `play` stands with the stream of this number. -/
inductive PlayPc where
  | idle
  /-- At `PLAY_STATE.lock().await`. -/
  | lock (n : ℕ)
  /-- Holding the guard. -/
  | setStream (n : ℕ)
  /-- In `do_and_wait`, where `SRC_READY_CALL` says. -/
  | doAndWait (n : ℕ)
  /-- In the `f` of `do_and_wait`: the command has been given and has not returned. -/
  | checkSrcRdy (n : ℕ)
  /-- Before the media is started. -/
  | start (n : ℕ)

/-- Where the data callback stands. -/
inductive DataPc where
  | idle
  /-- At `block_on(PLAY_STATE.lock())`. -/
  | lock (buf : List UInt8) (len : Int32)
  /-- In `stream.read` of the stream of this number, holding the guard. -/
  | read (n : ℕ) (buf : List UInt8) (len : Int32)
  /-- Without a stream to read from, holding the guard. -/
  | noStream (buf : List UInt8) (len : Int32)

/-- `PLAY_STATE`, the streams and the data callback. -/
structure PlayStreams where
  /-- The number of the stream in `PLAY_STATE`. -/
  playState : Option ℕ
  /-- Who holds the guard of `PLAY_STATE`. -/
  lock : Option PlayParty
  streams : ℕ → OggStream
  nextStream : ℕ
  data : DataPc
  /-- The data callbacks that have returned. -/
  delivered : List DataResult

namespace PlayStreams

/-- Stream `n` has moved. -/
def setStream (s : PlayStreams) (n : ℕ) (stream : OggStream) : PlayStreams :=
  { s with streams := Function.update s.streams n stream }

/-- A new stream, and the thread that has been spawned for it. -/
def newStream (s : PlayStreams) (file : OggFile) : PlayStreams :=
  { s.setStream s.nextStream (.start file []) with nextStream := s.nextStream + 1 }

/-- `stream.read` is called for the memory at `buf`, under the guard. -/
def callRead (s : PlayStreams) (n : ℕ) (buf : List UInt8) (len : Int32) : PlayStreams :=
  { s.setStream n ((s.streams n).expecting [bufferViewI16 buf len]) with
    lock := some .data
    data := .read n buf len }

/-- The data callback returns, and has read from no stream. -/
def dataReturns (s : PlayStreams) (buf : List UInt8) (len ret : Int32) : PlayStreams :=
  { s with data := .idle, delivered := s.delivered ++ [⟨none, len, buf, ret⟩] }

/-- Under the guard, the data callback finds no stream. -/
def noStream (s : PlayStreams) (buf : List UInt8) (len : Int32) : PlayStreams :=
  { s with lock := some .data, data := .noStream buf len }

/-- The data callback has logged that there is no stream. It returns and drops the guard. -/
def noStreamReturns (s : PlayStreams) (buf : List UInt8) (len : Int32) : PlayStreams :=
  { s.dataReturns buf len 0 with lock := none }

/-- The data callback returns with what `stream.read` has returned, and drops the guard. -/
def readReturns (s : PlayStreams) (n : ℕ) (buf : List UInt8) (len : Int32) (r : ReadResult) :
    PlayStreams :=
  { s with
    lock := none
    data := .idle
    delivered := s.delivered ++ [⟨some n, len, bytesOf r.buf ++ buf.drop (2 * r.buf.length),
      dataCbReturn (.ok r.n : Except Empty ℕ)⟩] }

end PlayStreams

/-- The statics, the tasks and the streams. -/
structure A2dpPlay extends PlayStreams where
  srcReadyCall : AsyncCall ℕ ℕ (Except PlayError Unit)
  play : PlayPc
  /-- What the calls of `play` have returned. -/
  results : List (Except PlayError Unit)
  /-- How many times `CHECK_SRC_RDY` has been given. -/
  checks : ℕ
  /-- The acknowledgements of `CHECK_SRC_RDY`. -/
  acks : List MediaCtrlAck
  /-- The completion that the event callback is in. -/
  completing : Option ℕ
  panicked : Bool

/-- The steps of the tasks. -/
inductive PlayAction where
  /-- `playback_task`, with what spawning the thread returns. -/
  | playbackTask (file : OggFile) (spawn : Except Int32 Unit)
  /-- A step of `play`. -/
  | play
  /-- `esp_a2d_media_ctrl` returns. -/
  | mediaCtrl (ret : Except Int32 Unit)
  /-- `bt_app_a2d_cb`, up to the `notify` of a completion. -/
  | event (e : A2dEvent)
  /-- The `notify` of `SRC_READY_CALL.complete`. -/
  | notify
  /-- `bt_app_a2d_data_cb`. -/
  | dataCb (buf : List UInt8) (len : Int32)
  /-- A step of the data callback. -/
  | data
  /-- A step of a decoding thread. -/
  | decoder (n : ℕ)
  /-- A spurious wake-up at the queue of a stream. -/
  | wake (n : ℕ) (p : Party)

namespace A2dpPlay

/-- Nothing has been played. -/
def new : A2dpPlay where
  playState := none
  lock := none
  streams _ := .start ⟨false, false, [], false⟩ []
  nextStream := 0
  srcReadyCall := .new
  play := .idle
  results := []
  checks := 0
  acks := []
  completing := none
  data := .idle
  delivered := []
  panicked := false

/-- `playback_task` up to the call of `play`. -/
def playbackTask (s : A2dpPlay) (file : OggFile) (spawn : Except Int32 Unit) :
    Option A2dpPlay :=
  match s.play, spawn with
  | .idle, .ok _ => some { s with
      toPlayStreams := s.newStream file
      play := .lock s.nextStream }
  | .idle, .error code => some { s with results := s.results ++ [.error (.spawn code)] }
  | _, _ => none

/-- `play` returns. -/
def playReturns (s : A2dpPlay) (result : Except PlayError Unit) : A2dpPlay :=
  { s with play := .idle, results := s.results ++ [result] }

/-- One step of `play`. -/
def playStep (s : A2dpPlay) : Option A2dpPlay :=
  match s.play with
  | .lock n =>
    match s.lock with
    | none => some { s with lock := some .play, play := .setStream n }
    | some _ => none
  | .setStream n => some { s with playState := some n, lock := none, play := .doAndWait n }
  | .doAndWait n =>
    match s.srcReadyCall.caller n with
    | .idle => (s.srcReadyCall.step (.listen n)).map fun call ↦ { s with srcReadyCall := call }
    | .listening => some { s with checks := s.checks + 1, play := .checkSrcRdy n }
    | .awaiting => (s.srcReadyCall.step (.resume n)).map fun call ↦ { s with srcReadyCall := call }
    | .resumed => (s.srcReadyCall.step (.take n)).map fun call ↦
        let s := { s with srcReadyCall := call }
        match call.caller n with
        | .returned (.ok _) => { s with play := .start n }
        | .returned (.error e) => s.playReturns (.error e)
        | _ => { s with panicked := true }
    | _ => none
  | _ => none

/-- `esp_a2d_media_ctrl` returns to `play`. -/
def mediaCtrl (s : A2dpPlay) (ret : Except Int32 Unit) : Option A2dpPlay :=
  match s.play, ret with
  | .checkSrcRdy n, .ok _ => (s.srcReadyCall.step (.runF n)).map fun call ↦
      { s with srcReadyCall := call, play := .doAndWait n }
  -- `.expect("CHECK_SRC_READY failed")`
  | .checkSrcRdy _, .error _ => some { s with panicked := true }
  | .start _, .ok _ => some (s.playReturns (.ok ()))
  | .start _, .error code => some (s.playReturns (.error (.esp code)))
  | _, _ => none

/-- `bt_app_a2d_cb`, up to the `notify` of a completion. -/
def btAppA2dCb (s : A2dpPlay) (e : A2dEvent) : Option A2dpPlay :=
  match s.completing, e with
  | some _, _ => none
  | none, .audioState _ => some s
  | none, .mediaCtrlAck .checkSrcRdy status =>
    (s.srcReadyCall.step (.replace s.acks.length status.result)).map fun call ↦ { s with
      srcReadyCall := call
      acks := s.acks ++ [status]
      completing := some s.acks.length }
  | none, .mediaCtrlAck .start _ => some s
  -- `todo!()` and `panic!`
  | none, .mediaCtrlAck (.other _) _ => some { s with panicked := true }
  | none, .audioCfg | none, .profState | none, .other _ => some { s with panicked := true }

/-- The rest of the completion. -/
def notify (s : A2dpPlay) : Option A2dpPlay :=
  match s.completing with
  | some k => (s.srcReadyCall.step (.notify k)).map fun call ↦
      { s with srcReadyCall := call, completing := none }
  | none => none

/-- `bt_app_a2d_data_cb` is called with the memory at `buf`, which has `len` bytes. -/
def btAppA2dDataCb (s : A2dpPlay) (buf : List UInt8) (len : Int32) : Option A2dpPlay :=
  match s.data with
  | .idle =>
    if buf.length = len.toInt.toNat then
      if len = -1 then some { s with toPlayStreams := s.dataReturns buf len 0 }
      else if len < 0 then some { s with toPlayStreams := s.dataReturns buf len len }
      else some { s with data := .lock buf len }
    else none
  | _ => none

/-- One step of the data callback behind its tests of `len`. -/
def dataStep (s : A2dpPlay) : Option A2dpPlay :=
  match s.data with
  | .idle => none
  | .lock buf len =>
    match s.lock, s.playState with
    | none, some n => some { s with toPlayStreams := s.callRead n buf len }
    | none, none => some { s with toPlayStreams := s.noStream buf len }
    | some _, _ => none
  | .noStream buf len => some { s with toPlayStreams := s.noStreamReturns buf len }
  | .read n buf len =>
    match (s.streams n).readerStep with
    | some stream => some { s with toPlayStreams := s.setStream n stream }
    | none =>
      match (s.streams n).reader, (s.streams n).bufs, (s.streams n).returned.getLast? with
      | .idle, [], some r => some { s with toPlayStreams := s.readReturns n buf len r }
      | .panicked, _, _ => some { s with panicked := true }
      -- `read` waits
      | _, _, _ => none

/-- One step of a decoding thread, or a spurious wake-up at the queue of a stream. -/
def streamStep (s : A2dpPlay) (n : ℕ) (a : StreamAction) : Option A2dpPlay :=
  if n < s.nextStream then
    ((s.streams n).step a).map fun stream ↦ { s with toPlayStreams := s.setStream n stream }
  else none

/-- One step of a task. A panic ends them all. -/
def step (s : A2dpPlay) (a : PlayAction) : Option A2dpPlay :=
  if s.panicked then none
  else
    match a with
    | .playbackTask file spawn => s.playbackTask file spawn
    | .play => s.playStep
    | .mediaCtrl ret => s.mediaCtrl ret
    | .event e => s.btAppA2dCb e
    | .notify => s.notify
    | .dataCb buf len => s.btAppA2dDataCb buf len
    | .data => s.dataStep
    | .decoder n => s.streamStep n .decoder
    | .wake n p => s.streamStep n (.wake p)

/-- Playing as a machine. -/
def machine : StepMachine A2dpPlay PlayAction := ⟨step⟩

end A2dpPlay

/-! ### What a step does -/

namespace A2dpPlay

/-- The moves of the tasks. -/
inductive Move (s : A2dpPlay) : PlayAction → A2dpPlay → Prop
  | playbackTask {file ret} (h : s.play = .idle) : Move s (.playbackTask file (.ok ret))
      { s with toPlayStreams := s.newStream file, play := .lock s.nextStream }
  | spawnFails {file code} (h : s.play = .idle) : Move s (.playbackTask file (.error code))
      { s with results := s.results ++ [.error (.spawn code)] }
  | locks {n} (h : s.play = .lock n) (hl : s.lock = none) :
      Move s .play { s with lock := some .play, play := .setStream n }
  | sets {n} (h : s.play = .setStream n) :
      Move s .play { s with playState := some n, lock := none, play := .doAndWait n }
  | listens {n call} (h : s.play = .doAndWait n)
      (hcall : s.srcReadyCall.step (.listen n) = some call) :
      Move s .play { s with srcReadyCall := call }
  | checks {n} (h : s.play = .doAndWait n) (hc : s.srcReadyCall.caller n = .listening) :
      Move s .play { s with checks := s.checks + 1, play := .checkSrcRdy n }
  | resumes {n call} (h : s.play = .doAndWait n)
      (hcall : s.srcReadyCall.step (.resume n) = some call) :
      Move s .play { s with srcReadyCall := call }
  | ready {n call v} (h : s.play = .doAndWait n)
      (hcall : s.srcReadyCall.step (.take n) = some call)
      (hv : call.caller n = .returned (.ok v)) :
      Move s .play { s with srcReadyCall := call, play := .start n }
  | notReady {n call e} (h : s.play = .doAndWait n)
      (hcall : s.srcReadyCall.step (.take n) = some call)
      (hv : call.caller n = .returned (.error e)) :
      Move s .play (({ s with srcReadyCall := call } : A2dpPlay).playReturns (.error e))
  | takePanics {n call} (h : s.play = .doAndWait n)
      (hcall : s.srcReadyCall.step (.take n) = some call)
      (hv : ∀ v, call.caller n ≠ .returned v) :
      Move s .play { s with srcReadyCall := call, panicked := true }
  | checkReturns {n call ret} (h : s.play = .checkSrcRdy n)
      (hcall : s.srcReadyCall.step (.runF n) = some call) :
      Move s (.mediaCtrl (.ok ret)) { s with srcReadyCall := call, play := .doAndWait n }
  | checkRefused {n code} (h : s.play = .checkSrcRdy n) :
      Move s (.mediaCtrl (.error code)) { s with panicked := true }
  | started {n ret} (h : s.play = .start n) :
      Move s (.mediaCtrl (.ok ret)) (s.playReturns (.ok ()))
  | startRefused {n code} (h : s.play = .start n) :
      Move s (.mediaCtrl (.error code)) (s.playReturns (.error (.esp code)))
  | acks {status call} (h : s.completing = none)
      (hcall : s.srcReadyCall.step (.replace s.acks.length status.result) = some call) :
      Move s (.event (.mediaCtrlAck .checkSrcRdy status)) { s with
        srcReadyCall := call
        acks := s.acks ++ [status]
        completing := some s.acks.length }
  | ignores {e} (h : s.completing = none) (he : ∀ status, e ≠ .mediaCtrlAck .checkSrcRdy status) :
      Move s (.event e) s
  | eventPanics {e} (h : s.completing = none)
      (he : ∀ status, e ≠ .mediaCtrlAck .checkSrcRdy status) :
      Move s (.event e) { s with panicked := true }
  | notifies {k call} (h : s.completing = some k)
      (hcall : s.srcReadyCall.step (.notify k) = some call) :
      Move s .notify { s with srcReadyCall := call, completing := none }
  | dataReturns {buf len ret} (h : s.data = .idle) (hbuf : buf.length = len.toInt.toNat)
      (hret : (len = -1 ∧ ret = 0) ∨ (len ≠ -1 ∧ len < 0 ∧ ret = len)) :
      Move s (.dataCb buf len) { s with toPlayStreams := s.dataReturns buf len ret }
  | dataLocks {buf len} (h : s.data = .idle) (hbuf : buf.length = len.toInt.toNat)
      (hlen : ¬ len < 0) : Move s (.dataCb buf len) { s with data := .lock buf len }
  | noStream {buf len} (h : s.data = .lock buf len) (hl : s.lock = none)
      (hn : s.playState = none) :
      Move s .data { s with toPlayStreams := s.noStream buf len }
  | noStreamReturns {buf len} (h : s.data = .noStream buf len) :
      Move s .data { s with toPlayStreams := s.noStreamReturns buf len }
  | callRead {n buf len} (h : s.data = .lock buf len) (hl : s.lock = none)
      (hn : s.playState = some n) :
      Move s .data { s with toPlayStreams := s.callRead n buf len }
  | readStep {n buf len stream} (h : s.data = .read n buf len)
      (hr : (s.streams n).readerStep = some stream) :
      Move s .data { s with toPlayStreams := s.setStream n stream }
  | readReturns {n buf len r} (h : s.data = .read n buf len) (hr : (s.streams n).Unread)
      (hlast : (s.streams n).returned.getLast? = some r) :
      Move s .data { s with toPlayStreams := s.readReturns n buf len r }
  | readPanics {n buf len} (h : s.data = .read n buf len)
      (hr : (s.streams n).reader = .panicked) : Move s .data { s with panicked := true }
  | stream {n a b stream} (ha : (a = .decoder n ∧ b = .decoder) ∨ ∃ p, a = .wake n p ∧ b = .wake p)
      (hn : n < s.nextStream) (hstep : (s.streams n).step b = some stream) :
      Move s a { s with toPlayStreams := s.setStream n stream }

variable {s t : A2dpPlay} {a : PlayAction}

theorem move_of_playStep (h : s.playStep = some t) : Move s .play t := by
  rw [playStep] at h
  split at h
  next n hn =>
    split at h <;> cases h
    exact .locks hn ‹_›
  next n hn =>
    cases h
    exact .sets hn
  next n hn =>
    split at h
    · obtain ⟨call, hcall, rfl⟩ := Option.map_eq_some_iff.1 h
      exact .listens hn hcall
    · cases h
      exact .checks hn ‹_›
    · obtain ⟨call, hcall, rfl⟩ := Option.map_eq_some_iff.1 h
      exact .resumes hn hcall
    · obtain ⟨call, hcall, rfl⟩ := Option.map_eq_some_iff.1 h
      dsimp only
      split
      · exact .ready hn hcall ‹_›
      · exact .notReady hn hcall ‹_›
      next hok herror =>
        refine .takePanics hn hcall fun v hv ↦ ?_
        rcases v with e | v
        · exact herror e hv
        · exact hok v hv
    · cases h
  · cases h

theorem move_of_mediaCtrl {ret : Except Int32 Unit} (h : s.mediaCtrl ret = some t) :
    Move s (.mediaCtrl ret) t := by
  rw [mediaCtrl.eq_def] at h
  split at h
  · obtain ⟨call, hcall, rfl⟩ := Option.map_eq_some_iff.1 h
    exact .checkReturns ‹_› hcall
  · cases h
    exact .checkRefused ‹_›
  · cases h
    exact .started ‹_›
  · cases h
    exact .startRefused ‹_›
  · cases h

theorem move_of_btAppA2dCb {e : A2dEvent} (h : s.btAppA2dCb e = some t) : Move s (.event e) t := by
  rw [btAppA2dCb.eq_def] at h
  split at h
  · cases h
  · cases h
    exact .ignores ‹_› (by simp)
  · obtain ⟨call, hcall, rfl⟩ := Option.map_eq_some_iff.1 h
    exact .acks ‹_› hcall
  · cases h
    exact .ignores ‹_› (by simp)
  all_goals
    cases h
    exact .eventPanics ‹_› (by simp)

theorem move_of_btAppA2dDataCb {buf : List UInt8} {len : Int32}
    (h : s.btAppA2dDataCb buf len = some t) : Move s (.dataCb buf len) t := by
  rw [btAppA2dDataCb] at h
  split at h
  next hidle =>
    split at h
    next hbuf =>
      split at h
      next hlen =>
        cases h
        exact .dataReturns hidle hbuf (.inl ⟨hlen, rfl⟩)
      next hlen =>
        split at h <;> cases h
        next hneg => exact .dataReturns hidle hbuf (.inr ⟨hlen, hneg, rfl⟩)
        next hpos => exact .dataLocks hidle hbuf hpos
    · cases h
  · cases h

theorem move_of_dataStep (h : s.dataStep = some t) : Move s .data t := by
  rw [dataStep] at h
  split at h
  · cases h
  next buf len hlock =>
    split at h <;> cases h
    · exact .callRead hlock ‹_› ‹_›
    · exact .noStream hlock ‹_› ‹_›
  next buf len hnone =>
    cases h
    exact .noStreamReturns hnone
  next n buf len hread =>
    split at h
    · cases h
      exact .readStep hread ‹_›
    · split at h <;> cases h
      · exact .readReturns hread ⟨‹_›, ‹_›⟩ ‹_›
      · exact .readPanics hread ‹_›

theorem streamStep_cases {n : ℕ} {b : StreamAction} (h : s.streamStep n b = some t) :
    n < s.nextStream ∧ ∃ stream, (s.streams n).step b = some stream ∧
      t = { s with toPlayStreams := s.setStream n stream } := by
  rw [streamStep] at h
  split at h
  next hn =>
    obtain ⟨stream, hstep, rfl⟩ := Option.map_eq_some_iff.1 h
    exact ⟨hn, stream, hstep, rfl⟩
  · cases h

/-- Nothing happens after a panic. -/
theorem panicked_of_step (h : s.step a = some t) : s.panicked = false := by
  by_contra hpanic
  simp [step, hpanic] at h

/-- **Every step is a move.** -/
theorem move_of_step (h : s.step a = some t) : Move s a t := by
  rw [step.eq_def] at h
  split at h
  · cases h
  cases a with
  | playbackTask file spawn =>
    dsimp only at h
    rw [A2dpPlay.playbackTask.eq_def] at h
    split at h <;> cases h
    · exact .playbackTask ‹_›
    · exact .spawnFails ‹_›
  | play => exact move_of_playStep h
  | mediaCtrl ret => exact move_of_mediaCtrl h
  | event e => exact move_of_btAppA2dCb h
  | notify =>
    dsimp only at h
    rw [A2dpPlay.notify.eq_def] at h
    split at h
    · obtain ⟨call, hcall, rfl⟩ := Option.map_eq_some_iff.1 h
      exact .notifies ‹_› hcall
    · cases h
  | dataCb buf len => exact move_of_btAppA2dDataCb h
  | data => exact move_of_dataStep h
  | decoder n =>
    obtain ⟨hn, stream, hstep, rfl⟩ := streamStep_cases h
    exact .stream (.inl ⟨rfl, rfl⟩) hn hstep
  | wake n p =>
    obtain ⟨hn, stream, hstep, rfl⟩ := streamStep_cases h
    exact .stream (.inr ⟨p, rfl, rfl⟩) hn hstep

end A2dpPlay

/-! ### Who holds the guard -/

/-- The number of the stream that `play` is busy with. -/
def PlayPc.stream? : PlayPc → Option ℕ
  | .idle => none
  | .lock n | .setStream n | .doAndWait n | .checkSrcRdy n | .start n => some n

/-- `play` holds the guard. -/
def PlayPc.HoldsLock : PlayPc → Prop
  | .setStream _ => True
  | _ => False

/-- The data callback holds the guard. -/
def DataPc.HoldsLock : DataPc → Prop
  | .read _ _ _ => True
  | .noStream _ _ => True
  | _ => False

namespace A2dpPlay

variable {s t : A2dpPlay} {a : PlayAction}

/-- `play` is busy with the newest stream, and the guard of `PLAY_STATE` is held by the task
whose code says so. -/
structure Guarded (s : A2dpPlay) : Prop where
  newest : ∀ n, s.play.stream? = some n → n + 1 = s.nextStream
  play : s.lock = some .play ↔ s.play.HoldsLock
  data : s.lock = some .data ↔ s.data.HoldsLock

theorem guarded_new : Guarded new := by
  constructor <;> simp [new, PlayPc.stream?, PlayPc.HoldsLock, DataPc.HoldsLock]

theorem Guarded.move (hs : Guarded s) (h : Move s a t) : Guarded t := by
  obtain ⟨hn, hp, hd⟩ := hs
  cases h with
  | playbackTask h =>
    rw [h] at hp
    exact ⟨by simp [PlayPc.stream?, PlayStreams.newStream], hp, hd⟩
  | locks h hl =>
    rw [h] at hn
    rw [hl] at hd
    exact ⟨hn, by simp [PlayPc.HoldsLock], by simp [← hd]⟩
  | sets h =>
    rw [h] at hn hp
    rw [hp.2 trivial] at hd
    exact ⟨hn, by simp [PlayPc.HoldsLock], by simp [← hd]⟩
  | checks h _ | ready h _ _ | checkReturns h _ =>
    rw [h] at hn hp
    exact ⟨hn, hp, hd⟩
  | notReady h _ _ | started h | startRefused h =>
    rw [h] at hp
    exact ⟨by simp [playReturns, PlayPc.stream?], hp, hd⟩
  | spawnFails _ | listens _ _ | resumes _ _ | takePanics _ _ _ | checkRefused _ | acks _ _
  | ignores _ _ | eventPanics _ _ | notifies _ _ | readStep _ _ | readPanics _ _ | stream _ _ _ =>
    exact ⟨hn, hp, hd⟩
  | dataReturns h _ _ | dataLocks h _ _ =>
    rw [h] at hd
    exact ⟨hn, hp, hd⟩
  | noStream h hl _ =>
    rw [hl] at hp
    exact ⟨hn, by simp [PlayStreams.noStream, ← hp], by simp [PlayStreams.noStream,
      DataPc.HoldsLock]⟩
  | noStreamReturns h =>
    rw [h] at hd
    rw [hd.2 trivial] at hp
    exact ⟨hn, by simp [PlayStreams.noStreamReturns, PlayStreams.dataReturns, ← hp],
      by simp [PlayStreams.noStreamReturns, PlayStreams.dataReturns, DataPc.HoldsLock]⟩
  | callRead h hl hn' =>
    rw [hl] at hp
    exact ⟨hn, by simp [PlayStreams.callRead, ← hp], by simp [PlayStreams.callRead,
      DataPc.HoldsLock]⟩
  | readReturns h hr hlast =>
    rw [h] at hd
    rw [hd.2 trivial] at hp
    exact ⟨hn, by simp [PlayStreams.readReturns, ← hp], by simp [PlayStreams.readReturns,
      DataPc.HoldsLock]⟩

theorem guarded_of_run {as : List PlayAction} (h : machine.run new as = some s) : Guarded s :=
  machine.run_invariant (I := fun _ s ↦ Guarded s) guarded_new
    (fun _ _ _ _ _ hs ht ↦ hs.move (move_of_step ht)) h

end A2dpPlay

end Esp32A2dpPlayer
