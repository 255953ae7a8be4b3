import Esp32A2dpPlayer.Bluetooth.A2dpPlay

/-!
# How a stream serves the data callback

One call of `bt_app_a2d_data_cb` and one stream. The stack gives the memory and its length in bytes.
The callback sees it as half as many samples, has `stream.read` fill them, and returns twice the
count, so of an odd length the last byte is left over. `DataResult.Kept` is the contract of a call
that has returned, of those with a negative length and those without a stream as well.

`Serving` says how a stream stands to the calls that have read from it: it is running on their
requests, and they have returned what it has returned. In between two calls it has nothing to
return (`Serving.unread`), and the `read` under way is the last of its requests (`Serving.last`).
Serving is kept by each step of the stream, and by the call and the return of a `read`. It has to do
with no other stream, nor with which one is in `PLAY_STATE`.

What the calls got is then a front of what the stream's thread supplies (`Serving.exists_piece`).
-/

namespace Esp32A2dpPlayer

/-! ### The length of a call -/

/-- A length that is not negative is halved as a number. -/
theorem sliceLen_eq {len : Int32} (h : ¬ len < 0) : sliceLen len = len.toInt.toNat / 2 := by
  have hpos : 0 ≤ len.toInt := by simpa [Int32.lt_iff_toInt_lt] using h
  have hlt := len.toInt_lt
  rw [sliceLen, Int32.toInt_div]
  have htwo : (2 : Int32).toInt = 2 := rfl
  rw [htwo, Int.tdiv_eq_ediv_of_nonneg hpos, Int.bmod_eq_of_le] <;> omega

/-- The memory at `buf` holds that many samples. -/
theorem length_bufferViewI16 {buf : List UInt8} {len : Int32} (h : ¬ len < 0)
    (hbuf : buf.length = len.toInt.toNat) : (bufferViewI16 buf len).length = sliceLen len := by
  rw [bufferViewI16, length_samplesOf, List.length_take, hbuf, sliceLen_eq h]
  omega

/-- Twice the count of a full `read` is in the range of `i32`, since the length was. -/
theorem toInt_dataCbReturn {len : Int32} (h : ¬ len < 0) :
    (dataCbReturn (.ok (sliceLen len) : Except Empty ℕ)).toInt = 2 * sliceLen len := by
  have hlt := len.toInt_lt
  have heq := sliceLen_eq h
  have hsmall : sliceLen len * 2 < 2 ^ 31 := by omega
  rw [dataCbReturn, Int32.toInt_ofNat_of_lt hsmall]
  omega

/-- What a call that has returned guarantees: no memory is gained or lost, a stream has filled
all of the samples there is room for, and without a stream nothing is taken. -/
def DataResult.Kept (r : DataResult) : Prop :=
  r.buf.length = r.len.toInt.toNat ∧
    match r.stream with
    | some _ => ¬ r.len < 0 ∧ r.ret.toInt = 2 * (r.len.toInt.toNat / 2 : ℕ)
    | none => r.ret = if r.len < -1 then r.len else 0

/-! ### The calls of one stream -/

/-- The room that the read in progress has, if it reads from stream `n`. -/
def DataPc.lens (n : ℕ) : DataPc → List ℕ
  | .read m _ len => if m = n then [sliceLen len] else []
  | _ => []

namespace PlayStreams

/-- The calls that have returned from stream `n`. -/
def readsOf (s : PlayStreams) (n : ℕ) : List DataResult :=
  s.delivered.filter fun r ↦ r.stream = some n

/-- The bytes that came from stream `n`. -/
def bytesFrom (s : PlayStreams) (n : ℕ) : List UInt8 := (s.readsOf n).flatMap DataResult.bytes

/-- What the calls have asked stream `n` for, the one in progress last. -/
def lensOf (s : PlayStreams) (n : ℕ) : List ℕ :=
  (s.readsOf n).map (fun r ↦ sliceLen r.len) ++ s.data.lens n

/-- Stream `n` works on `file` and serves the calls. -/
structure Serving (file : OggFile) (n : ℕ) (s : PlayStreams) : Prop where
  running : ∃ bufs, bufs.map List.length = s.lensOf n ∧ OggStream.Running file bufs (s.streams n)
  bytes : (s.readsOf n).map DataResult.bytes <+:
    (s.streams n).returned.map fun r ↦ bytesOf r.buf

variable {s t : PlayStreams} {file : OggFile} {n m : ℕ}

/-- Serving goes by the stream and by its calls. -/
theorem Serving.congr (h : Serving file n s) (hstreams : t.streams n = s.streams n)
    (hreads : t.readsOf n = s.readsOf n) (hlens : t.data.lens n = s.data.lens n) :
    Serving file n t := by
  obtain ⟨hrunning, hbytes⟩ := h
  rw [← hstreams] at hrunning hbytes
  rw [lensOf, ← hreads, ← hlens] at hrunning
  rw [← hreads] at hbytes
  exact ⟨hrunning, hbytes⟩

end PlayStreams

namespace OggStream

variable {file : OggFile} {bufs : List (List Int16)} {s t : OggStream}

/-- A stream is unread when it has returned from all of its calls. -/
theorem Running.unread (h : Running file bufs s) (hlen : s.returned.length = bufs.length) :
    s.Unread := by
  have hrequests := congrArg List.length h.lossless.requests
  have hsound := h.lossless.reader
  simp only [List.length_append, List.length_map] at hrequests
  have hframe : s.reader.frame.toList = [] := List.eq_nil_of_length_eq_zero (by omega)
  have hbufs : s.bufs = [] := List.eq_nil_of_length_eq_zero (by omega)
  refine ⟨?_, hbufs⟩
  cases hr : s.reader with
  | idle => rfl
  | panicked =>
    rw [hr] at hsound
    cases hsound
  | _ => simp [hr, ReaderPc.frame] at hframe

/-- And then it has returned what the calls asked for. -/
theorem Unread.map_n (hs : s.Unread) (h : Running file bufs s) :
    s.returned.map ReadResult.n = bufs.map List.length := by
  have hrequests := h.lossless.requests
  rw [hs.1, hs.2] at hrequests
  simpa [ReaderPc.frame] using hrequests

end OggStream

namespace PlayStreams

variable {s : PlayStreams} {file : OggFile} {n m : ℕ} {buf : List UInt8} {len ret : Int32}
  {r : ReadResult}

/-- Between two calls the stream has nothing to return. -/
theorem Serving.unread (h : Serving file n s) (hlens : s.data.lens n = []) :
    (s.streams n).Unread ∧
      (s.readsOf n).map DataResult.bytes = (s.streams n).returned.map fun r ↦ bytesOf r.buf := by
  obtain ⟨⟨bufs, hbufs, hrunning⟩, hbytes⟩ := h
  have hrequests := congrArg List.length hrunning.lossless.requests
  have hcalls := congrArg List.length hbufs
  have hle := hbytes.length_le
  simp only [lensOf, hlens, List.append_nil, List.length_append, List.length_map] at *
  exact ⟨hrunning.unread (by omega), hbytes.eq_of_length (by simp only [List.length_map]; omega)⟩

/-- The stream takes a step. -/
theorem Serving.stream (h : Serving file n s) {a : StreamAction} (ha : a ≠ .setEndOfFile)
    {stream : OggStream} (hstep : (s.streams n).step a = some stream) :
    Serving file n (s.setStream n stream) := by
  obtain ⟨⟨bufs, hbufs, hrunning⟩, hbytes⟩ := h
  have hself : (s.setStream n stream).streams n = stream := Function.update_self ..
  refine ⟨⟨bufs, hbufs, ?_⟩, ?_⟩
  · rw [hself]
    exact hrunning.step ha hstep
  · rw [hself]
    exact hbytes.trans ((OggStream.returned_prefix_of_step hstep).map _)

/-- No call has come to a new stream. -/
theorem serving_new (file : OggFile) (hreads : s.readsOf s.nextStream = [])
    (hlens : s.data.lens s.nextStream = []) : Serving file s.nextStream (s.newStream file) := by
  have hself : (s.newStream file).streams s.nextStream = .start file [] :=
    Function.update_self ..
  have hreads' : (s.newStream file).readsOf s.nextStream = [] := hreads
  have hlens' : (s.newStream file).data.lens s.nextStream = [] := hlens
  refine ⟨⟨[], ?_, ?_⟩, ?_⟩
  · rw [lensOf, hreads', hlens']
    rfl
  · rw [hself]
    exact .refl _
  · rw [hreads']
    exact List.nil_prefix

/-- `read` is called. -/
theorem Serving.callRead (h : Serving file n s) (hlens : s.data.lens n = []) (hlen : ¬ len < 0)
    (hbuf : buf.length = len.toInt.toNat) : Serving file n (s.callRead n buf len) := by
  obtain ⟨⟨bufs, hbufs, hrunning⟩, hbytes⟩ := h
  have hself : (s.callRead n buf len).streams n =
      (s.streams n).expecting [bufferViewI16 buf len] := Function.update_self ..
  refine ⟨⟨bufs ++ [bufferViewI16 buf len], ?_, hself ▸ hrunning.expecting _⟩, ?_⟩
  · have hreads : (s.callRead n buf len).readsOf n = s.readsOf n := rfl
    have hcall : (s.callRead n buf len).data.lens n = [sliceLen len] := if_pos rfl
    rw [List.map_append, hbufs, lensOf, lensOf, hreads, hlens, hcall, List.append_nil,
      List.map_singleton, length_bufferViewI16 hlen hbuf]
  · rw [hself]
    exact hbytes

/-- The call of the data callback that returns with `r`. -/
def result (n : ℕ) (buf : List UInt8) (len : Int32) (r : ReadResult) : DataResult where
  stream := some n
  len := len
  buf := bytesOf r.buf ++ buf.drop (2 * r.buf.length)
  ret := dataCbReturn (.ok r.n : Except Empty ℕ)

/-- The call that returns is the last one of its stream. -/
theorem readsOf_readReturns_self :
    (s.readReturns n buf len r).readsOf n = s.readsOf n ++ [result n buf len r] := by
  simp [readsOf, readReturns, result]

/-- The calls of the other streams are what they were. -/
theorem readsOf_readReturns_of_ne (hne : m ≠ n) :
    (s.readReturns n buf len r).readsOf m = s.readsOf m := by
  simp [readsOf, readReturns, hne.symm]

/-- The `read` in progress has returned: it has filled its part of the memory. -/
theorem Serving.last (h : Serving file n s) (hlens : s.data.lens n = [sliceLen len])
    (hunread : (s.streams n).Unread) (hlast : (s.streams n).returned.getLast? = some r) :
    r.n = sliceLen len ∧ r.buf.length = sliceLen len ∧
      (s.readsOf n).map DataResult.bytes ++ [bytesOf r.buf] =
        (s.streams n).returned.map fun r ↦ bytesOf r.buf := by
  obtain ⟨⟨bufs, hbufs, hrunning⟩, hbytes⟩ := h
  obtain ⟨before, hbefore⟩ := List.getLast?_eq_some_iff.1 hlast
  have hn := hunread.map_n hrunning
  rw [hbufs, lensOf, hlens, hbefore, List.map_append, List.map_singleton] at hn
  obtain ⟨hcalls, hn⟩ := List.append_inj' hn rfl
  have hfull := hrunning.lossless.full r (by simp [hbefore])
  have hcount := congrArg List.length hcalls
  simp only [List.length_map] at hcount
  rw [hbefore, List.map_append, List.map_singleton] at hbytes ⊢
  refine ⟨by simpa using hn, by simpa [← hfull] using hn, ?_⟩
  -- all but the last of the results have been returned, and they are as many
  have hfront := List.prefix_of_prefix_length_le hbytes (List.prefix_append ..)
    (by simp [hcount])
  rw [hfront.eq_of_length (by simp [hcount])]

/-- The bytes of the call are those that `read` has filled in. -/
theorem bytes_result (hlen : ¬ len < 0) (hn : r.n = sliceLen len)
    (hr : r.buf.length = sliceLen len) : (result n buf len r).bytes = bytesOf r.buf := by
  have htake : (2 * (sliceLen len : ℤ)).toNat = (bytesOf r.buf).length := by
    rw [length_bytesOf]
    omega
  rw [result, DataResult.bytes, hn, toInt_dataCbReturn hlen, htake, List.take_left]

/-- The data callback returns from `read`. -/
theorem Serving.readReturns (h : Serving file n s) (hlens : s.data.lens n = [sliceLen len])
    (hlen : ¬ len < 0) (hunread : (s.streams n).Unread)
    (hlast : (s.streams n).returned.getLast? = some r) :
    Serving file n (s.readReturns n buf len r) := by
  obtain ⟨hn, hr, hbytes⟩ := h.last hlens hunread hlast
  obtain ⟨⟨bufs, hbufs, hrunning⟩, -⟩ := h
  refine ⟨⟨bufs, ?_, hrunning⟩, ?_⟩
  · rw [hbufs, lensOf, lensOf, hlens, readsOf_readReturns_self]
    simp [PlayStreams.readReturns, DataPc.lens, result]
  · rw [readsOf_readReturns_self, List.map_append, List.map_singleton, bytes_result hlen hn hr,
      hbytes]
    exact List.prefix_refl _

/-- A call that has filled its part of the memory keeps its contract. -/
theorem kept_result (hlen : ¬ len < 0) (hbuf : buf.length = len.toInt.toNat)
    (hn : r.n = sliceLen len) (hr : r.buf.length = sliceLen len) :
    (result n buf len r).Kept := by
  have heq := sliceLen_eq hlen
  refine ⟨?_, hlen, ?_⟩
  · simp only [result, List.length_append, List.length_drop, length_bytesOf]
    omega
  · simp only [result]
    rw [hn, toInt_dataCbReturn hlen, heq]

end PlayStreams

/-! ### The data callback between its steps -/

/-- What holds of the locals of the data callback. -/
def DataPc.Sound (playState : Option ℕ) : DataPc → Prop
  | .idle => True
  | .lock buf len => ¬ len < 0 ∧ buf.length = len.toInt.toNat
  | .read n buf len => playState = some n ∧ ¬ len < 0 ∧ buf.length = len.toInt.toNat
  | .noStream buf len => ¬ len < 0 ∧ buf.length = len.toInt.toNat

/-- No call is under way at a stream that is not in `PLAY_STATE`. -/
theorem DataPc.Sound.lens {playState : Option ℕ} {pc : DataPc} {n : ℕ} (h : pc.Sound playState)
    (hn : n ∉ playState) : pc.lens n = [] := by
  cases pc with
  | read m buf len =>
    refine if_neg fun hmn ↦ hn ?_
    rw [h.1, hmn]
    rfl
  | _ => rfl

/-- The stack takes no bytes from a call that has read from no stream: what that returns is not
positive. -/
theorem DataResult.Kept.bytes_eq_nil {r : DataResult} (h : r.Kept) (hr : r.stream = none) :
    r.bytes = [] := by
  obtain ⟨-, hret⟩ := h
  rw [hr] at hret
  have hneg : r.ret.toInt ≤ 0 := by
    simp only at hret
    rw [hret]
    split
    next hlt =>
      rw [Int32.lt_iff_toInt_lt] at hlt
      have hone : (-1 : Int32).toInt = -1 := rfl
      omega
    · exact Int.le_refl _
  rw [DataResult.bytes, Int.toNat_of_nonpos hneg, List.take_zero]

/-- From a call that has read the stack takes all the samples there was room for. -/
theorem DataResult.Kept.length_bytes {r : DataResult} (h : r.Kept) {n : ℕ}
    (hr : r.stream = some n) :
    r.bytes.length = 2 * sliceLen r.len := by
  obtain ⟨hbuf, hret⟩ := h
  rw [hr] at hret
  obtain ⟨hlen, hret⟩ := hret
  rw [DataResult.bytes, List.length_take, hbuf, sliceLen_eq hlen, hret]
  omega

namespace PlayStreams

variable {s : PlayStreams} {file : OggFile} {n : ℕ}

/-- What the calls got from a stream is the front of its supply. -/
theorem Serving.exists_piece (h : Serving file n s) :
    ∃ piece, piece <+: file.supply ∧ s.bytesFrom n = bytesOf piece := by
  obtain ⟨⟨bufs, -, hrunning⟩, hbytes⟩ := h
  have hfull : (s.streams n).returnedSamples =
      (s.streams n).returned.flatMap fun r ↦ r.buf :=
    List.flatMap_congr fun r hr ↦ by rw [hrunning.lossless.full r hr, List.take_length]
  refine ⟨((s.streams n).returned.take (s.readsOf n).length).flatMap fun r ↦ r.buf, ?_, ?_⟩
  · refine List.IsPrefix.trans ?_ hrunning.returnedSamples_prefix
    have hsplit := congrArg (List.flatMap fun r ↦ r.buf)
      (List.take_append_drop (s.readsOf n).length (s.streams n).returned)
    rw [List.flatMap_append] at hsplit
    rw [hfull]
    exact ⟨_, hsplit⟩
  · have htake := List.prefix_iff_eq_take.1 hbytes
    rw [List.length_map, ← List.map_take] at htake
    rw [bytesFrom, List.flatMap_def, htake, bytesOf, List.flatMap_assoc, List.flatMap_def]
    rfl

end PlayStreams

end Esp32A2dpPlayer
