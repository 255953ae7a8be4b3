import Mathlib.Algebra.BigOperators.Ring.List
import Esp32A2dpPlayer.Bluetooth.PlayedBytes

/-!
# Whether a call of the data callback returns

`bt_app_a2d_data_cb` holds the guard of `PLAY_STATE` while it reads, and `read` waits for samples as
long as it takes. `callback_returns_or_starves` says what comes of that, for a call that has come to
its `read`. It goes by whether the samples that the stream's thread supplies are enough for what has
been taken from it and for this call.

* If they are, the call can still return from wherever the tasks have got to. The stream alone can
  get there: its thread and its reader come to a stop (`OggStream.measure`), and where they stop
  there is nothing left to read for. The run of the two is a run of the tasks
  (`reaches_withStream`).
* If they are not, the call never returns, and keeps the guard and every later `play` from its
  stream (`Starved`). That is an invariant of all continuations, of which only the return of the
  `read` could make an end.
-/

namespace Esp32A2dpPlayer

namespace A2dpPlay

variable {s t : A2dpPlay} {as : List PlayAction} {a : PlayAction} {n : ℕ} {buf : List UInt8}
  {len : Int32}

/-! ### A stream in the whole -/

/-- What the calls asked for is what came, and the room that the read in progress has. -/
theorem Delivers.sum_lensOf {files : List OggFile} (hs : Delivers files s)
    (hdata : s.data = .read n buf len) :
    (s.lensOf n).sum = (s.bytesFrom n).length / 2 + sliceLen len := by
  have hbytes : (s.bytesFrom n).length = 2 * ((s.readsOf n).map fun r ↦ sliceLen r.len).sum := by
    rw [PlayStreams.bytesFrom, List.length_flatMap, ← List.sum_map_mul_left]
    refine congrArg _ (List.map_congr_left fun r hr ↦ ?_)
    obtain ⟨hmem, hr⟩ := List.mem_filter.1 hr
    exact (hs.kept r hmem).length_bytes (of_decide_eq_true hr)
  rw [PlayStreams.lensOf, hdata, List.sum_append, hbytes]
  simp [DataPc.lens]

/-- The stream in a state that is otherwise the same. -/
def withStream (s : A2dpPlay) (n : ℕ) (stream : OggStream) : A2dpPlay :=
  { s with toPlayStreams := s.setStream n stream }

/-- With its own stream a state is what it is. -/
theorem withStream_self (s : A2dpPlay) (n : ℕ) : s.withStream n (s.streams n) = s := by
  rw [withStream, PlayStreams.setStream, Function.update_eq_self]

/-- The last stream counts. -/
theorem withStream_withStream (s : A2dpPlay) (n : ℕ) (x y : OggStream) :
    (s.withStream n x).withStream n y = s.withStream n y := by
  simp [withStream, PlayStreams.setStream]

/-- **The sides of the stream go on in the whole**: whatever the thread and the reader of the
stream that is read can reach, the tasks can reach. -/
theorem reaches_withStream (hpanic : s.panicked = false) (hn : n < s.nextStream)
    (hdata : s.data = .read n buf len) {x y : OggStream}
    (h : OggStream.machine.Reaches (fun a ↦ a = .decoder ∨ a = .reader) x y) :
    machine.Reaches (fun _ ↦ True) (s.withStream n x) (s.withStream n y) := by
  refine h.map (fun x ↦ s.withStream n x) fun x a y ha hstep ↦ ?_
  have hself : (s.withStream n x).streams n = x := Function.update_self ..
  obtain rfl | rfl := ha
  · refine .single (a := .decoder n) trivial ?_
    have hstep : x.step .decoder = some y := hstep
    have hrun : (s.withStream n x).panicked = false := hpanic
    have hlt : n < (s.withStream n x).nextStream := hn
    show (s.withStream n x).step (.decoder n) = _
    rw [step, hrun, if_neg Bool.false_ne_true, streamStep, if_pos hlt, hself, hstep]
    exact congrArg some (s.withStream_withStream n x y)
  · refine .single (a := .data) trivial ?_
    have hstep : x.readerStep = some y := hstep
    have hrun : (s.withStream n x).panicked = false := hpanic
    have hread : (s.withStream n x).data = .read n buf len := hdata
    show (s.withStream n x).step .data = _
    rw [step, hrun, if_neg Bool.false_ne_true, dataStep, hread]
    simp only [hself, hstep]
    exact congrArg some (s.withStream_withStream n x y)

/-- A stream with samples enough comes to the end of its calls. -/
theorem exists_unread {file : OggFile} {bufs : List (List Int16)} {x : OggStream}
    (h : OggStream.Running file bufs x) (hlen : requested bufs ≤ file.supply.length) :
    ∃ y, OggStream.machine.Reaches (fun a ↦ a = .decoder ∨ a = .reader) x y ∧ y.Unread ∧
      OggStream.Running file bufs y := by
  obtain ⟨as, y, has, hrun, hy, hstop⟩ := OggStream.machine.exists_quiescent
    (A := fun a ↦ a = .decoder ∨ a = .reader) (I := OggStream.Running file bufs)
    OggStream.measure
    (fun s a t ha hs hstep ↦ hs.step (by rintro rfl; simp at ha) hstep)
    (fun s a t ha hs hstep ↦ by
      obtain rfl | rfl := ha
      · exact OggStream.measure_decoder_move (OggStream.decoderMove_of_step hstep)
      · exact OggStream.measure_reader_move (OggStream.readerMove_of_step hstep))
    h
  refine ⟨y, ⟨as, has, hrun⟩, ?_, hy⟩
  obtain hidle | hstuck := hy.stopped (hstop .decoder (.inl rfl)) (hstop .reader (.inr rfl))
  · exact hidle
  · have hlt := hy.lossless.supply_lt_of_stuck hy.supplied.2 hstuck
    omega

/-- A read that its stream can serve returns. -/
theorem Delivers.exists_return {files : List OggFile} (hs : Delivers files s)
    (hpanic : s.panicked = false) (hdata : s.data = .read n buf len) {file : OggFile}
    (hfile : files[n]? = some file) (hlen : (s.lensOf n).sum ≤ file.supply.length) :
    ∃ as t r, machine.run s as = some t ∧ t.delivered = s.delivered ++ [r] := by
  have hsound := hs.data
  rw [hdata] at hsound
  have hn := hs.installed n hsound.1
  obtain ⟨⟨bufs, hbufs, hrunning⟩, -⟩ := hs.serving n file hfile
  obtain ⟨y, hreach, hunread, hy⟩ := exists_unread hrunning
    (show (bufs.map List.length).sum ≤ _ from hbufs ▸ hlen)
  -- the call that is under way is the last of those that have returned
  obtain ⟨r, hlast⟩ : ∃ r, y.returned.getLast? = some r := by
    have hcount := hunread.map_n hy
    rw [hbufs, PlayStreams.lensOf, hdata] at hcount
    refine ⟨y.returned.getLast ?_, List.getLast?_eq_getLast_of_ne_nil _⟩
    rintro hnil
    simp [hnil, DataPc.lens] at hcount
  obtain ⟨as, -, hrun⟩ := reaches_withStream hpanic hn hdata hreach
  rw [withStream_self] at hrun
  have hself : (s.withStream n y).streams n = y := Function.update_self ..
  have hreturn : machine.step (s.withStream n y) .data = some { s.withStream n y with
      toPlayStreams := (s.withStream n y).readReturns n buf len r } := by
    have hrun : (s.withStream n y).panicked = false := hpanic
    have hread : (s.withStream n y).data = .read n buf len := hdata
    show (s.withStream n y).step .data = _
    rw [step, hrun, if_neg Bool.false_ne_true, dataStep, hread]
    simp only [hself, hunread.readerStep, hunread.1, hunread.2, hlast]
  exact ⟨as ++ [.data], _, _, machine.run_concat_eq_some_iff.2 ⟨_, hrun, hreturn⟩, rfl⟩

/-! ### A read that waits for good -/

/-- A read that its stream cannot serve, and what it keeps from moving. -/
structure Starved (s t : A2dpPlay) : Prop where
  data : t.data = s.data
  delivered : t.delivered = s.delivered
  playState : t.playState = s.playState
  play : ∀ m, s.play = .lock m → t.play = .lock m

/-- A read that starves goes on starving: no other step moves it, and its own return would need more
samples than there are. -/
theorem Starved.move {files : List OggFile} {u : A2dpPlay} (h : Starved s t)
    (ht : Delivers files t) (hdata : s.data = .read n buf len) {file : OggFile}
    (hfile : files[n]? = some file) (hlen : file.supply.length < (s.lensOf n).sum)
    (hmove : Move t a u) : Starved s u := by
  obtain ⟨hd, hdelivered, hstate, hplay⟩ := h
  have hread : t.data = .read n buf len := hd.trans hdata
  have hlock : t.lock = some .data := ht.guarded.data.2 (by rw [hread]; trivial)
  -- `play` goes on only where it is not at the lock
  have hother {pc : PlayPc} (hpc : t.play = pc) (hno : ∀ m, pc ≠ .lock m) (pc' : PlayPc) (m : ℕ)
      (hm : s.play = .lock m) : pc' = .lock m :=
    absurd (hpc.symm.trans (hplay m hm)) (hno m)
  cases hmove with
  | playbackTask h => exact ⟨hd, hdelivered, hstate, hother h (by simp) _⟩
  | checks h _ | ready h _ _ | notReady h _ _ | checkReturns h _ | started h | startRefused h =>
    exact ⟨hd, hdelivered, hstate, hother h (by simp) _⟩
  | spawnFails _ | listens _ _ | resumes _ _ | takePanics _ _ _ | checkRefused _ | acks _ _
  | ignores _ _ | eventPanics _ _ | notifies _ _ | readPanics _ _ | readStep _ _ | stream _ _ _ =>
    exact ⟨hd, hdelivered, hstate, hplay⟩
  -- the guard is not free
  | locks h hl =>
    rw [hlock] at hl
    cases hl
  | sets h =>
    have hplaying := ht.guarded.play.2 (by rw [h]; trivial)
    rw [hlock] at hplaying
    cases hplaying
  | dataReturns h _ _ | dataLocks h _ _ | noStream h _ _ | noStreamReturns h | callRead h _ _ =>
    rw [hread] at h
    cases h
  | readReturns h hr _ =>
    rw [hread] at h
    cases h
    -- more samples would have been returned than the thread supplies
    obtain ⟨⟨bufs, hbufs, hrunning⟩, -⟩ := ht.serving n file hfile
    have hsum := congrArg List.sum (hr.map_n hrunning)
    have hle := hrunning.returnedSamples_prefix.length_le
    rw [hrunning.lossless.length_returnedSamples, hsum, hbufs, PlayStreams.lensOf,
      PlayStreams.readsOf, hdelivered, hd] at hle
    exact absurd hle (Nat.not_le.2 hlen)

/-- **Whether a call of the data callback returns.** Over every run that has come to a `read`: if
the samples that the stream's thread supplies are enough for what has been taken from it and for
this call, the call can still return from wherever the tasks have got to. If they are not, it never
does, whatever happens: the callback keeps the guard of `PLAY_STATE`, and a `play` that is at the
guard stays there, so that no other stream ever takes the place of the one that has ended. -/
theorem callback_returns_or_starves (h : machine.run new as = some s)
    (hdata : s.data = .read n buf len) (hpanic : s.panicked = false) :
    ∃ file, (played as)[n]? = some file ∧
      ((s.bytesFrom n).length / 2 + sliceLen len ≤ file.supply.length →
        ∃ as' t r, machine.run s as' = some t ∧ t.delivered = s.delivered ++ [r]) ∧
      (file.supply.length < (s.bytesFrom n).length / 2 + sliceLen len →
        ∀ as' t, machine.run s as' = some t → Starved s t) := by
  have hs := delivers_of_run h
  have hsound := hs.data
  rw [hdata] at hsound
  have hn := hs.count ▸ hs.installed n hsound.1
  have hsum := hs.sum_lensOf hdata
  refine ⟨_, List.getElem?_eq_getElem hn, fun hle ↦ ?_, fun hlt as' t hrun ↦ ?_⟩
  · exact hs.exists_return hpanic hdata (List.getElem?_eq_getElem hn) (hsum ▸ hle)
  · refine machine.run_invariant (I := fun _ t ↦ Starved s t) ⟨rfl, rfl, rfl, fun _ hm ↦ hm⟩
      (fun as' t a u hrun ht hstep ↦ ?_) hrun
    have hfile : (played (as ++ as'))[n]? = some (played as)[n] := by
      rw [played_append, List.getElem?_append_left hn]
      exact List.getElem?_eq_getElem hn
    exact ht.move (delivers_of_run (machine.run_append_eq_some_iff.2 ⟨s, h, hrun⟩)) hdata hfile
      (hsum ▸ hlt) (move_of_step hstep)

/-- The file that is played cannot be opened, and the stack asks for a sample. -/
theorem starves_notOpened : ∃ s, machine.run new
      [.playbackTask ⟨false, true, [[5, 6]], false⟩ (.ok ()), .play, .play, .dataCb [0, 0] 2,
        .data] = some s ∧
    ∀ as' t, machine.run s as' = some t → Starved s t := by
  have hstarves (s : A2dpPlay) (hs : machine.run new
      [.playbackTask ⟨false, true, [[5, 6]], false⟩ (.ok ()), .play, .play, .dataCb [0, 0] 2,
        .data] = some s) (hdata : s.data = .read 0 [0, 0] 2) (hpanic : s.panicked = false)
      (hfrom : s.bytesFrom 0 = []) : ∀ as' t, machine.run s as' = some t → Starved s t := by
    obtain ⟨file, hfile, -, hstarves⟩ := callback_returns_or_starves hs hdata hpanic
    obtain rfl : (⟨false, true, [[5, 6]], false⟩ : OggFile) = file := Option.some.inj hfile
    exact hstarves (by rw [hfrom]; decide)
  exact ⟨_, rfl, hstarves _ rfl rfl rfl rfl⟩

end A2dpPlay

end Esp32A2dpPlayer
