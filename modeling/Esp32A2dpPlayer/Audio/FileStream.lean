import Esp32A2dpPlayer.Bytes.ByteCodec
import Esp32A2dpPlayer.Concurrency.StepMachine

/-!
# `FileStream`

The other stream of `audio.rs`: samples straight from a file. `read` views its `buf` of samples
as bytes, hands the view to `File::read`, and returns half the number of bytes that came. How
many come is up to the file system, from none to as many as fit, and the position of the file
moves by just that many.

Half of an odd number is rounded down and the byte that is left over is not put back. So the
stream tears its samples exactly if a read that came back odd is followed by one that brings two
bytes or more (`neverTears_iff`).

## What the proof rests on

Each returned sample is traced to the place of its first byte in the file (`origins`). Its value
is the one the file has there (`Step.returned`), so the samples are those of the file in order if
the places are `0`, `2`, `4` and so on (`InOrder`).
-/

namespace Esp32A2dpPlayer

/-! ### Samples as bytes -/

/-- The memory of a slice of samples, in the byte order of the ESP32. -/
def bytesOf (samples : List Int16) : List UInt8 :=
  samples.flatMap fun sample ↦ ByteCodec.u16le.encode sample.toUInt16

/-- Bytes taken as samples, two by two. -/
def samplesOf : List UInt8 → List Int16
  | b₀ :: b₁ :: bytes => (b₀.toUInt16 ||| b₁.toUInt16 <<< 8).toInt16 :: samplesOf bytes
  | _ => []

/-- The sample whose first byte is at `i`, whether or not one starts there. -/
def sampleAt (bytes : List UInt8) (i : ℕ) : Option Int16 :=
  (ByteCodec.u16le.decodeAt bytes i).map UInt16.toInt16

theorem length_bytesOf (samples : List Int16) : (bytesOf samples).length = 2 * samples.length := by
  have hlen := ByteCodec.u16le.flatMap_encode_length (samples.map Int16.toUInt16)
  rw [List.flatMap_map, List.length_map] at hlen
  rw [bytesOf, hlen, Nat.mul_comm]
  rfl

theorem getElem?_samplesOf (bytes : List UInt8) (j : ℕ) :
    (samplesOf bytes)[j]? = sampleAt bytes (2 * j) := by
  fun_induction samplesOf bytes generalizing j with
  | case1 b₀ b₁ bytes ih =>
    cases j with
    | zero => rfl
    | succ j =>
      rw [List.getElem?_cons_succ, ih]
      rfl
  | case2 bytes hshort =>
    have hnone : ¬ (ByteCodec.u16le.decodeAt bytes (2 * j)).isSome := by
      rw [ByteCodec.u16le.decodeAt_isSome]
      rcases bytes with - | ⟨b₀, - | ⟨b₁, bytes⟩⟩
      · simp [ByteCodec.u16le]
      · simp [ByteCodec.u16le]
      · exact absurd rfl (hshort b₀ b₁ bytes)
    rw [sampleAt, Option.not_isSome_iff_eq_none.1 hnone]
    rfl

theorem length_samplesOf (bytes : List UInt8) : (samplesOf bytes).length = bytes.length / 2 := by
  fun_induction samplesOf bytes with
  | case1 b₀ b₁ bytes ih =>
    rw [List.length_cons, ih, List.length_cons, List.length_cons]
    omega
  | case2 bytes hshort =>
    rcases bytes with - | ⟨b₀, - | ⟨b₁, bytes⟩⟩
    · rfl
    · simp
    · exact absurd rfl (hshort b₀ b₁ bytes)

/-! ### The stream -/

/-- `FileStream`: an open file and the position in it. -/
structure FileStream where
  file : List UInt8
  position : ℕ

/-- One call of `read`: the slice it is given, and what `File::read` answers. -/
structure ReadCall where
  buf : List Int16
  /-- A number of bytes, or an error with its code. -/
  answer : Except Int32 ℕ

namespace FileStream

/-- `FileStream::read`: the stream and the slice behind the call, and the result; `none` where
`File::read` cannot answer so, with more bytes than fit or than the file has. -/
def read (s : FileStream) (c : ReadCall) :
    Option (FileStream × List Int16 × Except Int32 ℕ) :=
  let bufferViewU8 := bytesOf c.buf
  match c.answer with
  | .ok bytesRead =>
    if bytesRead ≤ bufferViewU8.length ∧ s.position + bytesRead ≤ s.file.length then
      let view := (s.file.drop s.position).take bytesRead ++ bufferViewU8.drop bytesRead
      some ({ s with position := s.position + bytesRead }, samplesOf view, .ok (bytesRead / 2))
    else none
  | .error e => some (s, c.buf, .error e)

/-- One call after another. -/
def machine : StepMachine FileStream ReadCall where
  step s c := (s.read c).map fun r ↦ r.1

/-- `buf[..n]` of a call that returns `Ok(n)`. -/
def returned (s : FileStream) (c : ReadCall) : List Int16 :=
  match s.read c with
  | some (_, buf, .ok n) => buf.take n
  | _ => []

/-- The places of the first bytes of these samples in the file. -/
def origins (s : FileStream) (c : ReadCall) : List ℕ :=
  match s.read c with
  | some (_, _, .ok n) => (List.range n).map fun j ↦ s.position + 2 * j
  | _ => []

/-- The samples of all calls from the start of the file. -/
def allReturned (file : List UInt8) (calls : List ReadCall) : List Int16 :=
  (machine.outputs (fun s c ↦ some (s.returned c)) ⟨file, 0⟩ calls).flatten

/-- The places of all of them. -/
def allOrigins (file : List UInt8) (calls : List ReadCall) : List ℕ :=
  (machine.outputs (fun s c ↦ some (s.origins c)) ⟨file, 0⟩ calls).flatten

/-- The samples of these places come one after the other from the front of the file. -/
def InOrder (origins : List ℕ) : Prop :=
  origins = (List.range origins.length).map fun j ↦ 2 * j

/-- The samples are those at the front of the file, no byte is skipped, and each sample comes
from two bytes that belong together. -/
def NeverTears (file : List UInt8) (calls : List ReadCall) : Prop :=
  allReturned file calls <+: samplesOf file ∧ InOrder (allOrigins file calls)

end FileStream

/-- The bytes that a call brings. -/
def ReadCall.bytes (c : ReadCall) : ℕ :=
  match c.answer with
  | .ok bytesRead => bytesRead
  | .error _ => 0

/-- No read that came back odd is followed by one that brings a sample. -/
def NoSampleAfterOdd (calls : List ReadCall) : Prop :=
  calls.Pairwise fun c c' ↦ c.bytes % 2 = 1 → c'.bytes < 2

namespace FileStream

variable {file : List UInt8} {calls : List ReadCall} {s t : FileStream} {c : ReadCall}

/-! ### One call -/

/-- The view holds the bytes of the file from the position on. -/
theorem sampleAt_view {rest : List UInt8} {n j : ℕ} (hj : 2 * j + 2 ≤ n)
    (hin : s.position + n ≤ s.file.length) :
    sampleAt ((s.file.drop s.position).take n ++ rest) (2 * j) =
      sampleAt s.file (s.position + 2 * j) := by
  have hlen : ((s.file.drop s.position).take n).length = n := by
    rw [List.length_take, List.length_drop]
    omega
  rw [sampleAt, sampleAt]
  refine congrArg (Option.map UInt16.toInt16) (ByteCodec.u16le_isLocal _ _ _ _ fun k hk ↦ ?_)
  have hk2 : k < 2 := hk
  rw [List.getElem?_append_left (by omega), List.getElem?_take_of_lt (by omega),
    List.getElem?_drop, Nat.add_assoc]

/-- The samples that a read of `n` bytes completes are those of the file from the position on. -/
theorem take_samplesOf_view {rest : List UInt8} {n : ℕ}
    (hin : s.position + n ≤ s.file.length) :
    ((samplesOf ((s.file.drop s.position).take n ++ rest)).take (n / 2)).map some =
      ((List.range (n / 2)).map fun j ↦ s.position + 2 * j).map (sampleAt s.file) := by
  rw [List.map_map]
  refine List.ext_getElem? fun j ↦ ?_
  rw [List.getElem?_map, List.getElem?_map, List.getElem?_take]
  by_cases hj : j < n / 2
  · have hsome : (sampleAt s.file (s.position + 2 * j)).isSome := by
      rw [sampleAt, Option.isSome_map, ByteCodec.u16le.decodeAt_isSome]
      show s.position + 2 * j + 2 ≤ s.file.length
      omega
    obtain ⟨sample, hsample⟩ := Option.isSome_iff_exists.1 hsome
    rw [if_pos hj, getElem?_samplesOf, sampleAt_view (by omega) hin, List.getElem?_range hj,
      Option.map_some, Function.comp_apply, hsample]
    rfl
  · rw [if_neg hj, List.getElem?_eq_none (by simpa using hj)]
    rfl

/-- A call that `File::read` answers with `n` bytes. -/
theorem read_ok {buf : List Int16} {n : ℕ}
    (h : n ≤ (bytesOf buf).length ∧ s.position + n ≤ s.file.length) :
    s.read ⟨buf, .ok n⟩ = some ({ s with position := s.position + n },
      samplesOf ((s.file.drop s.position).take n ++ (bytesOf buf).drop n), .ok (n / 2)) :=
  if_pos h

theorem read_ok_eq_none {buf : List Int16} {n : ℕ}
    (h : ¬ (n ≤ (bytesOf buf).length ∧ s.position + n ≤ s.file.length)) :
    s.read ⟨buf, .ok n⟩ = none :=
  if_neg h

/-- What a call does to the stream, and where its samples come from. -/
structure Step (s : FileStream) (c : ReadCall) (t : FileStream) : Prop where
  file : t.file = s.file
  position : t.position = s.position + c.bytes
  origins : s.origins c = (List.range (c.bytes / 2)).map fun j ↦ s.position + 2 * j
  returned : (s.returned c).map some = (s.origins c).map (sampleAt s.file)

theorem machine_step : machine.step s c = (s.read c).map fun r ↦ r.1 := rfl

theorem step_of_machine (h : machine.step s c = some t) : Step s c t := by
  obtain ⟨buf, answer⟩ := c
  cases answer with
  | error e =>
    cases h
    exact ⟨rfl, rfl, by simp [origins, read, ReadCall.bytes], rfl⟩
  | ok n =>
    by_cases hn : n ≤ (bytesOf buf).length ∧ s.position + n ≤ s.file.length
    · have hread := read_ok hn
      have horigins : s.origins ⟨buf, .ok n⟩ =
          (List.range (n / 2)).map fun j ↦ s.position + 2 * j := by
        rw [origins, hread]
      rw [machine_step, hread] at h
      cases h
      refine ⟨rfl, rfl, horigins, ?_⟩
      rw [horigins, returned, hread]
      exact take_samplesOf_view hn.2
    · rw [machine_step, read_ok_eq_none hn] at h
      cases h

/-! ### All calls -/

theorem inOrder_append_iff {l : List ℕ} {n p : ℕ} :
    InOrder (l ++ (List.range n).map fun j ↦ p + 2 * j) ↔
      InOrder l ∧ (n = 0 ∨ p = 2 * l.length) := by
  have hrest : ((List.range n).map fun j ↦ p + 2 * j) =
      ((List.range n).map fun j ↦ l.length + j).map (fun j ↦ 2 * j) ↔
        n = 0 ∨ p = 2 * l.length := by
    rw [List.map_map, List.map_inj_left]
    simp only [List.mem_range, Function.comp_apply]
    constructor
    · intro h
      rcases Nat.eq_zero_or_pos n with hn | hn
      · exact Or.inl hn
      · have hfirst := h 0 hn
        omega
    · intro h j hj
      omega
  unfold InOrder
  rw [List.length_append, List.length_map, List.length_range, List.range_add, List.map_append,
    ← hrest]
  refine ⟨fun h ↦ List.append_inj h (by simp), ?_⟩
  rintro ⟨hl, hr⟩
  rw [← hl, hr]

/-- What is known of a run: where the samples came from, and how far they lag behind the
position. -/
structure Traced (file : List UInt8) (calls : List ReadCall) (s : FileStream) : Prop where
  file_eq : s.file = file
  values : (allReturned file calls).map some = (allOrigins file calls).map (sampleAt file)
  le : 2 * (allOrigins file calls).length ≤ s.position
  eq_iff : 2 * (allOrigins file calls).length = s.position ↔ ∀ c ∈ calls, c.bytes % 2 = 0
  inOrder_iff : InOrder (allOrigins file calls) ↔ NoSampleAfterOdd calls

theorem traced_of_run (h : machine.run ⟨file, 0⟩ calls = some s) : Traced file calls s := by
  induction calls using List.reverseRecOn generalizing s with
  | nil =>
    cases h
    exact ⟨rfl, rfl, le_rfl, by simp [allOrigins], by simp [InOrder, allOrigins, NoSampleAfterOdd]⟩
  | append_singleton calls c ih =>
    obtain ⟨u, hu, hstep⟩ := machine.run_concat_eq_some_iff.1 h
    obtain ⟨hfile, hvalues, hle, heq, horder⟩ := ih hu
    have hc := step_of_machine hstep
    have hreturned : allReturned file (calls ++ [c]) = allReturned file calls ++ u.returned c := by
      rw [allReturned, machine.outputs_concat _ hu, List.flatten_append]
      simp [allReturned]
    have horigins : allOrigins file (calls ++ [c]) = allOrigins file calls ++ u.origins c := by
      rw [allOrigins, machine.outputs_concat _ hu, List.flatten_append]
      simp [allOrigins]
    have hlen : (allOrigins file (calls ++ [c])).length =
        (allOrigins file calls).length + c.bytes / 2 := by
      rw [horigins, List.length_append, hc.origins, List.length_map, List.length_range]
    refine ⟨hc.file.trans hfile, ?_, ?_, ?_, ?_⟩
    · rw [hreturned, horigins, List.map_append, List.map_append, hvalues, hc.returned, hfile]
    · rw [hlen, hc.position]
      omega
    · rw [hlen, hc.position, List.forall_mem_append, List.forall_mem_singleton, ← heq]
      omega
    · have hlast : (c.bytes / 2 = 0 ∨ u.position = 2 * (allOrigins file calls).length) ↔
          ∀ c' ∈ calls, c'.bytes % 2 = 1 → c.bytes < 2 := by
        rw [eq_comm (a := u.position), heq]
        constructor
        · rintro (hshort | heven) c' hc' hodd
          · omega
          · have := heven c' hc'
            omega
        · intro hodd
          by_cases hshort : c.bytes < 2
          · exact Or.inl (by omega)
          · refine Or.inr fun c' hc' ↦ ?_
            have := hodd c' hc'
            omega
      rw [horigins, hc.origins, inOrder_append_iff, horder, hlast, NoSampleAfterOdd,
        NoSampleAfterOdd, List.pairwise_append]
      simp

/-- Samples that come in order are those at the front of the file. -/
theorem prefix_of_inOrder {samples : List Int16} {origins : List ℕ}
    (hvalues : samples.map some = origins.map (sampleAt file)) (h : InOrder origins) :
    samples <+: samplesOf file := by
  refine List.prefix_iff_getElem?.2 fun j hj ↦ ?_
  have hlen : samples.length = origins.length := by
    simpa using congrArg List.length hvalues
  have hget := congrArg (fun l ↦ l[j]?) hvalues
  rw [h, List.map_map, List.getElem?_map, List.getElem?_map, List.getElem?_range (hlen ▸ hj),
    List.getElem?_eq_getElem hj] at hget
  rw [getElem?_samplesOf]
  exact (Option.some.inj hget).symm

/-- **When the stream tears no sample.** In every sequence of reads, it hands out the samples
of the file from the front, each from its own two bytes, if and only if no read that came back
odd is followed by one that brings two bytes or more. -/
theorem neverTears_iff (h : machine.run ⟨file, 0⟩ calls = some s) :
    NeverTears file calls ↔ NoSampleAfterOdd calls := by
  have htraced := traced_of_run h
  refine ⟨fun hnever ↦ htraced.inOrder_iff.1 hnever.2, fun hodd ↦ ?_⟩
  have horder := htraced.inOrder_iff.2 hodd
  exact ⟨prefix_of_inOrder htraced.values horder, horder⟩

/-- Two reads that fill their slices. -/
theorem neverTears_full : NeverTears [1, 0, 2, 0, 3, 0] [⟨[0, 0], .ok 4⟩, ⟨[0, 0], .ok 2⟩] :=
  (neverTears_iff (s := ⟨[1, 0, 2, 0, 3, 0], 6⟩) rfl).2 (by simp [NoSampleAfterOdd, ReadCall.bytes])

/-- A read of three bytes takes the low byte of the second sample with it, and the next read
hands out a sample of its high byte and the low byte of the third. -/
theorem neverTears_oddRead :
    ¬ ∀ (file : List UInt8) (calls : List ReadCall), (machine.run ⟨file, 0⟩ calls).isSome →
      allReturned file calls <+: samplesOf file := by
  intro h
  have htorn := h [1, 0, 2, 0, 3, 0] [⟨[0, 0], .ok 3⟩, ⟨[0], .ok 2⟩] rfl
  have hreturned : allReturned [1, 0, 2, 0, 3, 0] [⟨[0, 0], .ok 3⟩, ⟨[0], .ok 2⟩] = [1, 768] := by
    decide
  rw [hreturned] at htorn
  exact absurd htorn (by decide)

end FileStream

end Esp32A2dpPlayer
