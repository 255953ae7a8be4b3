import Esp32A2dpPlayer.Bluetooth.Serving

/-!
# What the data callback delivers

The bytes the stack gets from `bt_app_a2d_data_cb`, over every run of the tasks, and however many
streams have been played. A stream goes on serving when it is replaced, because the guard of
`PLAY_STATE` is held while a `read` is under way, so that a stream is replaced only between two
calls (`Guarded`). `Delivers` is the invariant: it has each of the files that have been played
served by its stream, and the bytes of the streams one after the other.

* `bytes_delivered`: the bytes are those of the files in the order in which they were played, of
  each one the front of what its thread supplies.
* `kept_of_delivered`: each call returns the whole of what it was asked for, down to an even
  number of bytes, or reads nothing at all.
-/

namespace Esp32A2dpPlayer

/-! ### The calls of all streams -/

/-- The files that streams have been made for. -/
def played (as : List PlayAction) : List OggFile :=
  as.filterMap fun
    | .playbackTask file (.ok _) => some file
    | _ => none

/-- A longer run goes on with the files. -/
theorem played_append (as bs : List PlayAction) : played (as ++ bs) = played as ++ played bs :=
  List.filterMap_append ..

/-- Behind the last part that is not empty, something more. -/
theorem flatMap_range_append {α : Type*} {f g : ℕ → List α} {n k : ℕ} {x : List α} (hn : n < k)
    (hself : g n = f n ++ x) (hne : ∀ m, m ≠ n → g m = f m) (hlater : ∀ m, n < m → f m = []) :
    (List.range k).flatMap g = (List.range k).flatMap f ++ x := by
  induction k with
  | zero => cases hn
  | succ k ih =>
    rw [List.range_succ, List.flatMap_append, List.flatMap_append, List.flatMap_singleton,
      List.flatMap_singleton]
    obtain rfl | hlt := Nat.eq_or_lt_of_le (Nat.le_of_lt_succ hn)
    · have hbefore : (List.range n).flatMap g = (List.range n).flatMap f :=
        List.flatMap_congr fun m hm ↦ hne m (Nat.ne_of_lt (List.mem_range.1 hm))
      rw [hbefore, hself, List.append_assoc]
    · rw [ih hlt, hne k (Nat.ne_of_gt hlt), hlater k hlt, List.append_nil, List.append_nil]

namespace A2dpPlay

variable {files : List OggFile} {s t : A2dpPlay} {a : PlayAction} {n : ℕ}

/-- **The invariant of the data callback**, over the files that have been played. -/
structure Delivers (files : List OggFile) (s : A2dpPlay) : Prop where
  guarded : Guarded s
  count : s.nextStream = files.length
  installed : ∀ n ∈ s.playState, n < s.nextStream
  data : s.data.Sound s.playState
  serving : ∀ n file, files[n]? = some file → PlayStreams.Serving file n s.toPlayStreams
  later : ∀ n, (∀ m ∈ s.playState, m < n) → s.readsOf n = []
  kept : ∀ r ∈ s.delivered, r.Kept
  inOrder : s.delivered.flatMap DataResult.bytes = (List.range s.nextStream).flatMap s.bytesFrom

/-- Nothing has been played, and nothing delivered. -/
theorem delivers_new : Delivers [] new where
  guarded := guarded_new
  count := rfl
  installed n hn := by cases hn
  data := trivial
  serving n file h := by cases h
  later n hn := rfl
  kept r hr := by cases hr
  inOrder := rfl

/-- What `play` does to its call does not matter. -/
theorem Delivers.congr (hs : Delivers files s) (ht : Guarded t)
    (h : t.toPlayStreams = s.toPlayStreams) : Delivers files t := by
  obtain ⟨-, hcount, hinstalled, hdata, hserving, hlater, hkept, horder⟩ := hs
  rw [← h] at *
  exact ⟨ht, hcount, hinstalled, hdata, hserving, hlater, hkept, horder⟩

/-- No call is under way at a stream that has not been made. -/
theorem Delivers.lens (hs : Delivers files s) (hn : s.nextStream ≤ n) : s.data.lens n = [] :=
  hs.data.lens fun hmem ↦ absurd (hs.installed n hmem) (Nat.not_lt.2 hn)

/-- No call has come to a stream that has not been made. -/
theorem Delivers.reads (hs : Delivers files s) (hn : s.nextStream ≤ n) : s.readsOf n = [] :=
  hs.later n fun m hm ↦ Nat.lt_of_lt_of_le (hs.installed m hm) hn

/-- A new stream is made. -/
theorem Delivers.newStream (hs : Delivers files s) (file : OggFile) {pc : PlayPc}
    (ht : Guarded { s with toPlayStreams := s.newStream file, play := pc }) :
    Delivers (files ++ [file]) { s with toPlayStreams := s.newStream file, play := pc } where
  guarded := ht
  count := by
    have hcount := hs.count
    simpa [PlayStreams.newStream] using hcount
  installed n hn := Nat.lt_succ_of_lt (hs.installed n hn)
  data := hs.data
  serving n file' hfile := by
    rw [List.getElem?_append] at hfile
    split at hfile
    next hn =>
      refine (hs.serving n file' hfile).congr (Function.update_of_ne ?_ _ _) rfl rfl
      rw [hs.count]
      exact Nat.ne_of_lt hn
    next hn =>
      obtain ⟨hlt, rfl⟩ := List.getElem?_eq_some_iff.1 hfile
      obtain rfl : n = s.nextStream := by
        rw [hs.count]
        simp only [List.length_singleton] at hlt
        omega
      simpa using PlayStreams.serving_new file (hs.reads (Nat.le_refl _))
        (hs.lens (Nat.le_refl _))
  later n hn := hs.later n hn
  kept := hs.kept
  inOrder := by
    have hnone : s.bytesFrom s.nextStream = [] := by
      rw [PlayStreams.bytesFrom, hs.reads (Nat.le_refl _)]
      rfl
    show s.delivered.flatMap DataResult.bytes =
      (List.range (s.nextStream + 1)).flatMap s.bytesFrom
    rw [List.range_succ, List.flatMap_append, List.flatMap_singleton, hnone, List.append_nil,
      hs.inOrder]

/-- A stream takes a step. -/
theorem Delivers.stream (hs : Delivers files s) {b : StreamAction} (hb : b ≠ .setEndOfFile)
    {stream : OggStream} (hstep : (s.streams n).step b = some stream) :
    Delivers files { s with toPlayStreams := s.setStream n stream } where
  guarded := ⟨hs.guarded.newest, hs.guarded.play, hs.guarded.data⟩
  count := hs.count
  installed := hs.installed
  data := hs.data
  serving m file hfile := by
    obtain rfl | hne := eq_or_ne m n
    · exact (hs.serving m file hfile).stream hb hstep
    · exact (hs.serving m file hfile).congr (Function.update_of_ne hne _ _) rfl rfl
  later := hs.later
  kept := hs.kept
  inOrder := hs.inOrder

/-- A call returns that has not read from a stream, whatever it leaves the guard to. -/
theorem Delivers.dataReturns (hs : Delivers files s) {buf : List UInt8} {len ret : Int32}
    (lock : Option PlayParty)
    (ht : Guarded { s with toPlayStreams := { s.dataReturns buf len ret with lock } })
    (hdata : ∀ n, s.data.lens n = [])
    (hkept : DataResult.Kept ⟨none, len, buf, ret⟩) :
    Delivers files { s with toPlayStreams := { s.dataReturns buf len ret with lock } } := by
  have hreads (n : ℕ) : (s.dataReturns buf len ret).readsOf n = s.readsOf n := by
    simp [PlayStreams.readsOf, PlayStreams.dataReturns]
  have hfrom : (s.dataReturns buf len ret).bytesFrom = s.bytesFrom :=
    funext fun n ↦ congrArg _ (hreads n)
  refine ⟨ht, hs.count, hs.installed, trivial, fun n file hfile ↦ ?_, fun n hn ↦ ?_, ?_, ?_⟩
  · exact (hs.serving n file hfile).congr rfl (hreads n) (hdata n).symm
  · exact (hreads n).trans (hs.later n hn)
  · rintro r hr
    obtain hr | hr := List.mem_append.1 hr
    · exact hs.kept r hr
    · exact List.mem_singleton.1 hr ▸ hkept
  · show (s.delivered ++ [_]).flatMap DataResult.bytes =
      (List.range s.nextStream).flatMap (s.dataReturns buf len ret).bytesFrom
    rw [hfrom, List.flatMap_append, List.flatMap_singleton, hkept.bytes_eq_nil rfl,
      List.append_nil, hs.inOrder]

/-- `read` is called on the stream in `PLAY_STATE`. -/
theorem Delivers.callRead (hs : Delivers files s) {buf : List UInt8} {len : Int32}
    (ht : Guarded { s with toPlayStreams := s.callRead n buf len })
    (hdata : s.data = .lock buf len) (hn : s.playState = some n) :
    Delivers files { s with toPlayStreams := s.callRead n buf len } := by
  obtain ⟨hlen, hbuf⟩ : ¬ len < 0 ∧ buf.length = len.toInt.toNat := by
    have h := hs.data
    rwa [hdata] at h
  refine ⟨ht, hs.count, hs.installed, ⟨hn, hlen, hbuf⟩, fun m file hfile ↦ ?_, hs.later, hs.kept,
    hs.inOrder⟩
  have hlens : s.data.lens m = [] := by rw [hdata]; rfl
  obtain rfl | hne := eq_or_ne m n
  · exact (hs.serving m file hfile).callRead hlens hlen hbuf
  · exact (hs.serving m file hfile).congr (Function.update_of_ne hne _ _) rfl
      ((if_neg hne.symm).trans hlens.symm)

/-- `read` has returned. -/
theorem Delivers.readReturns (hs : Delivers files s) {buf : List UInt8} {len : Int32}
    {r : ReadResult} (ht : Guarded { s with toPlayStreams := s.readReturns n buf len r })
    (hdata : s.data = .read n buf len) (hunread : (s.streams n).Unread)
    (hlast : (s.streams n).returned.getLast? = some r) :
    Delivers files { s with toPlayStreams := s.readReturns n buf len r } := by
  obtain ⟨hn, hlen, hbuf⟩ : s.playState = some n ∧ ¬ len < 0 ∧ buf.length = len.toInt.toNat := by
    have h := hs.data
    rwa [hdata] at h
  have hlt := hs.installed n hn
  obtain ⟨file, hfile⟩ : ∃ file, files[n]? = some file :=
    ⟨_, List.getElem?_eq_getElem (hs.count ▸ hlt)⟩
  have hlens : s.data.lens n = [sliceLen len] := by
    rw [hdata]
    exact if_pos rfl
  obtain ⟨hrn, hr, -⟩ := (hs.serving n file hfile).last hlens hunread hlast
  have hself : (s.readReturns n buf len r).readsOf n =
      s.readsOf n ++ [PlayStreams.result n buf len r] := PlayStreams.readsOf_readReturns_self
  have hother (m : ℕ) (hne : m ≠ n) : (s.readReturns n buf len r).readsOf m = s.readsOf m :=
    PlayStreams.readsOf_readReturns_of_ne hne
  have hlater (m : ℕ) (hm : n < m) : s.readsOf m = [] :=
    hs.later m fun k hk ↦ Option.mem_unique hk hn ▸ hm
  refine ⟨ht, hs.count, hs.installed, trivial, fun m file' hfile' ↦ ?_, fun m hm ↦ ?_, ?_, ?_⟩
  · obtain rfl | hne := eq_or_ne m n
    · exact (hs.serving m file' hfile').readReturns hlens hlen hunread hlast
    · refine (hs.serving m file' hfile').congr rfl (hother m hne) ?_
      rw [hdata]
      exact (if_neg hne.symm).symm
  · have hnm := hm n hn
    exact (hother m (Nat.ne_of_gt hnm)).trans (hlater m hnm)
  · rintro r' hr'
    obtain hr' | hr' := List.mem_append.1 hr'
    · exact hs.kept r' hr'
    · exact List.mem_singleton.1 hr' ▸ PlayStreams.kept_result hlen hbuf hrn hr
  -- of the streams after this one nothing has been read, so that its bytes come last
  · show (s.delivered ++ [PlayStreams.result n buf len r]).flatMap DataResult.bytes =
      (List.range s.nextStream).flatMap (s.readReturns n buf len r).bytesFrom
    rw [List.flatMap_append, List.flatMap_singleton, hs.inOrder]
    refine (flatMap_range_append hlt ?_ (fun m hne ↦ ?_) fun m hm ↦ ?_).symm
    · rw [PlayStreams.bytesFrom, hself, List.flatMap_append, List.flatMap_singleton]
      rfl
    · rw [PlayStreams.bytesFrom, hother m hne]
      rfl
    · rw [PlayStreams.bytesFrom, hlater m hm]
      rfl

/-- **Every step keeps the invariant**, of the files with the one that the step plays. -/
theorem Delivers.move (hs : Delivers files s) (h : Move s a t) :
    Delivers (files ++ played [a]) t := by
  have ht := hs.guarded.move h
  have hnil {t : A2dpPlay} (ha : played [a] = []) (h : Delivers files t) :
      Delivers (files ++ played [a]) t := by rwa [ha, List.append_nil]
  cases h with
  | playbackTask h => exact hs.newStream _ ht
  | spawnFails _ | listens _ _ | checks _ _ | resumes _ _ | ready _ _ _ | notReady _ _ _
  | takePanics _ _ _ | checkReturns _ _ | checkRefused _ | started _ | startRefused _ | acks _ _
  | ignores _ _ | eventPanics _ _ | notifies _ _ | readPanics _ _ =>
    exact hnil rfl (hs.congr ht rfl)
  -- the guard changes hands, and no stream moves
  | locks h hl =>
    exact hnil rfl ⟨ht, hs.count, hs.installed, hs.data,
      fun n file hfile ↦ (hs.serving n file hfile).congr rfl rfl rfl, hs.later, hs.kept,
      hs.inOrder⟩
  | @sets n h =>
    have hnewest : n + 1 = s.nextStream := hs.guarded.newest n (by rw [h]; rfl)
    refine hnil rfl ⟨ht, hs.count, ?_, ?_, fun n file hfile ↦
      (hs.serving n file hfile).congr rfl rfl rfl, fun m hm ↦ ?_, hs.kept, hs.inOrder⟩
    · rintro m ⟨⟩
      exact Nat.lt_of_succ_le (Nat.le_of_eq hnewest)
    · -- `play` holds the guard, so no read is under way
      have hplay : s.lock = some .play := hs.guarded.play.2 (by rw [h]; trivial)
      have hdata := hs.data
      have hfree := hs.guarded.data
      show s.data.Sound (some n)
      cases hpc : s.data with
      | read m buf len =>
        rw [hpc] at hfree
        exact absurd (hplay.symm.trans (hfree.2 trivial)) (by simp)
      | _ =>
        rw [hpc] at hdata
        exact hdata
    · have hlt : n < m := hm n rfl
      exact hs.reads (by omega)
  | @dataReturns buf len ret h hbuf hret =>
    have hkept : ret = if len < -1 then len else 0 := by
      obtain ⟨hlen, hret⟩ | ⟨hne, hneg, hret⟩ := hret
      · rw [hlen, hret]
        rfl
      · have hne' : len.toInt ≠ (-1 : Int32).toInt := fun heq ↦ hne (Int32.toInt_inj.1 heq)
        have hone : (-1 : Int32).toInt = -1 := rfl
        have hzero : (0 : Int32).toInt = 0 := rfl
        rw [Int32.lt_iff_toInt_lt] at hneg
        rw [hret, if_pos (Int32.lt_iff_toInt_lt.2 (by omega))]
    exact hnil rfl (hs.dataReturns s.lock ht (fun n ↦ by rw [h]; rfl) ⟨hbuf, hkept⟩)
  | dataLocks h hbuf hlen =>
    refine hnil rfl ⟨ht, hs.count, hs.installed, ⟨hlen, hbuf⟩, fun n file hfile ↦
      (hs.serving n file hfile).congr rfl rfl (by rw [h]; rfl), hs.later, hs.kept, hs.inOrder⟩
  | noStream h hl hn =>
    have hdata := hs.data
    rw [h] at hdata
    exact hnil rfl ⟨ht, hs.count, hs.installed, hdata, fun n file hfile ↦
      (hs.serving n file hfile).congr rfl rfl (by rw [h]; rfl), hs.later, hs.kept, hs.inOrder⟩
  | noStreamReturns h =>
    have hdata := hs.data
    rw [h] at hdata
    refine hnil rfl
      (hs.dataReturns none ht (fun n ↦ by rw [h]; rfl) ⟨hdata.2, (if_neg ?_).symm⟩)
    intro hlt
    exact hdata.1 (Int32.lt_trans hlt (by decide))
  | callRead h hl hn => exact hnil rfl (hs.callRead ht h hn)
  | readStep h hr => exact hnil rfl (hs.stream (b := .reader) (by simp) hr)
  | readReturns h hr hlast => exact hnil rfl (hs.readReturns ht h hr hlast)
  | stream ha hn hstep =>
    obtain ⟨rfl, rfl⟩ | ⟨p, rfl, rfl⟩ := ha
    · exact hnil rfl (hs.stream (by simp) hstep)
    · exact hnil rfl (hs.stream (by simp) hstep)

/-- The run lemma of the data callback. -/
theorem delivers_of_run {as : List PlayAction} (h : machine.run new as = some s) :
    Delivers (played as) s :=
  machine.run_invariant (I := fun as s ↦ Delivers (played as) s) delivers_new
    (fun as _ a _ _ hs ht ↦ played_append as [a] ▸ hs.move (move_of_step ht)) h

end A2dpPlay

/-! ### What the stack gets -/

/-- The pieces of one list for each file, put together. -/
theorem exists_pieces {f : ℕ → List UInt8} {files : List OggFile}
    (h : ∀ n file, files[n]? = some file →
      ∃ piece, piece <+: file.supply ∧ f n = bytesOf piece) :
    ∃ pieces, List.Forall₂ (fun piece file ↦ piece <+: OggFile.supply file) pieces files ∧
      (List.range files.length).flatMap f = bytesOf pieces.flatten := by
  induction files generalizing f with
  | nil => exact ⟨[], .nil, rfl⟩
  | cons file files ih =>
    obtain ⟨piece, hpiece, hf⟩ := h 0 file rfl
    obtain ⟨pieces, hpieces, hfs⟩ := @ih (fun n ↦ f (n + 1)) fun n file hfile ↦ h (n + 1) file hfile
    refine ⟨piece :: pieces, .cons hpiece hpieces, ?_⟩
    rw [List.length_cons, List.range_succ_eq_map, List.flatMap_cons, List.flatMap_map, hf]
    rw [List.flatten_cons, bytesOf, bytesOf, List.flatMap_append]
    exact congrArg _ hfs

namespace A2dpPlay

variable {s t : A2dpPlay} {as : List PlayAction} {a : PlayAction} {n : ℕ} {buf : List UInt8}
  {len : Int32}

/-- **The stack gets the files in the order in which they are played.** Over every run: the bytes
that the calls of the data callback have returned are, one after the other, a front of the samples
of each file played, whatever streams have taken the place of others meanwhile. -/
theorem bytes_delivered (h : machine.run new as = some s) :
    ∃ pieces, List.Forall₂ (fun piece file ↦ piece <+: OggFile.supply file) pieces (played as) ∧
      s.delivered.flatMap DataResult.bytes = bytesOf pieces.flatten := by
  have hs := delivers_of_run h
  rw [hs.inOrder, hs.count]
  exact exists_pieces fun n file hfile ↦ (hs.serving n file hfile).exists_piece

/-- A file of two samples is played, and the stack asks for five bytes. -/
def oneSong : List PlayAction :=
  [.playbackTask ⟨true, true, [[5, 6]], false⟩ (.ok ()), .play, .play] ++
    List.replicate 8 (.decoder 0) ++ [.dataCb [0, 0, 0, 0, 0] 5] ++ List.replicate 10 .data

/-- Two samples are four bytes, and the fifth byte is left over. -/
theorem bytes_delivered_oneSong : ∃ s, machine.run new oneSong = some s ∧
    s.delivered.flatMap DataResult.bytes = [5, 0, 6, 0] ∧
      ∃ pieces, List.Forall₂ (fun piece file ↦ piece <+: OggFile.supply file) pieces
        (played oneSong) ∧ s.delivered.flatMap DataResult.bytes = bytesOf pieces.flatten := by
  have hpieces (s : A2dpPlay) (hs : machine.run new oneSong = some s) := bytes_delivered hs
  exact ⟨_, rfl, rfl, hpieces _ rfl⟩

/-- The reader of the stream that is read has not panicked. -/
theorem Delivers.reader_ne_panicked {files : List OggFile} (hs : Delivers files s)
    (hdata : s.data = .read n buf len) : (s.streams n).reader ≠ .panicked := by
  have hsound := hs.data
  rw [hdata] at hsound
  have hlt := hs.installed n hsound.1
  obtain ⟨⟨bufs, -, hrunning⟩, -⟩ := hs.serving n _ (List.getElem?_eq_getElem (hs.count ▸ hlt))
  intro hpanic
  have hreader := hrunning.lossless.reader
  rw [hpanic] at hreader
  exact hreader

/-- **Every call of the data callback keeps its contract**, over every run: it returns the bytes
there is room for, down to an even number, and no fewer, or reads nothing; and it never panics. -/
theorem kept_of_delivered (h : machine.run new as = some s) :
    (∀ r ∈ s.delivered, r.Kept) ∧
      ∀ t a, (a = .data ∨ ∃ buf len, a = .dataCb buf len) → s.step a = some t →
        t.panicked = false := by
  have hs := delivers_of_run h
  refine ⟨hs.kept, fun t a ha hstep ↦ ?_⟩
  have hrunning := panicked_of_step hstep
  obtain rfl | ⟨buf, len, rfl⟩ := ha
  · cases move_of_step hstep with
    | readPanics hdata hpanic => exact absurd hpanic (hs.reader_ne_panicked hdata)
    | stream ha _ _ => simp at ha
    | _ => exact hrunning
  · cases move_of_step hstep with
    | stream ha _ _ => simp at ha
    | _ => exact hrunning

/-- The one call of that run has kept its contract. -/
theorem kept_of_delivered_oneSong : ∃ s, machine.run new oneSong = some s ∧
    s.delivered.length = 1 ∧ ∀ r ∈ s.delivered, r.Kept := by
  have hkept (s : A2dpPlay) (hs : machine.run new oneSong = some s) := (kept_of_delivered hs).1
  exact ⟨_, rfl, rfl, hkept _ rfl⟩

end A2dpPlay

end Esp32A2dpPlayer
