import Esp32A2dpPlayer.Audio.SampleFifo

/-!
# The queue of samples is bounded

`decoding_thread` tests the length of the queue in one critical section, and `buffer_packet`
pushes in another. Only the thread adds samples, so what it has seen between the two can only
shrink: from the test to the push the queue stays below `bufferLimit`, and a push adds at most
one packet to that (`length_buffer_le`). Nothing is asked of the reader or of the flag.
-/

namespace Esp32A2dpPlayer

/-- Past the capacity test, with the push still to come. -/
def DecoderPc.HasRoom : DecoderPc → Prop
  | .lockPush _ => True
  | .push _ => True
  | _ => False

namespace OggStream

/-- The bound of the queue when no packet has more than `P` samples. -/
structure Within (P : ℕ) (s : OggStream) : Prop where
  packets : ∀ p ∈ s.file.packets, p.length ≤ P
  inHand : ∀ p ∈ s.decoder.inHand, p.length ≤ P
  room : s.decoder.HasRoom → s.buffer.length < bufferLimit
  length : s.buffer.length ≤ 88199 + P

variable {file : OggFile} {bufs : List (List Int16)} {s t : OggStream} {P : ℕ}

theorem within_start (hP : ∀ p ∈ file.packets, p.length ≤ P) : Within P (start file bufs) where
  packets := hP
  inHand := by simp [start, DecoderPc.inHand]
  room := by simp [start, DecoderPc.HasRoom]
  length := Nat.zero_le _

theorem Within.decoder_move (hs : Within P s) (h : DecoderMove s t) : Within P t := by
  obtain ⟨hpackets, hinHand, hroom, hlength⟩ := hs
  cases h with
  | packet h hp =>
    rw [hp] at hpackets
    have hP := List.forall_mem_cons.1 hpackets
    exact ⟨hP.2, by simpa [DecoderPc.inHand] using hP.1, by simp [DecoderPc.HasRoom], hlength⟩
  | lockCheck h _ | wait h _ | woken h _ _ =>
    rw [h] at hinHand
    exact ⟨hpackets, hinHand, by simp [DecoderPc.HasRoom], hlength⟩
  | room h hb =>
    rw [h] at hinHand
    exact ⟨hpackets, hinHand, fun _ ↦ hb, hlength⟩
  | lockPush h _ =>
    rw [h] at hinHand hroom
    exact ⟨hpackets, hinHand, hroom, hlength⟩
  | push h =>
    rw [h] at hinHand hroom
    have hlt : s.buffer.length < 88200 := hroom trivial
    have hpacket := hinHand _ rfl
    refine ⟨hpackets, by simp [DecoderPc.inHand], by simp [DecoderPc.HasRoom], ?_⟩
    rw [List.length_append]
    omega
  | opened _ _ | notOpened _ _ | decodes _ _ | decodesNot _ _ | ended _ _ | notify _ =>
    exact ⟨hpackets, by simp [DecoderPc.inHand], by simp [DecoderPc.HasRoom], hlength⟩

/-- The reader only takes samples away. -/
theorem ReaderMove.buffer_shrinks (h : ReaderMove s t) :
    t.buffer.length ≤ s.buffer.length := by
  cases h with
  | drain _ _ _ => simp
  | _ => exact Nat.le_refl _

theorem Within.reader_move (hs : Within P s) (h : ReaderMove s t) : Within P t := by
  obtain ⟨hdecoder, hfile, -, -⟩ := h.frame
  have hle := h.buffer_shrinks
  refine ⟨?_, ?_, ?_, Nat.le_trans hle hs.length⟩
  · rw [hfile]
    exact hs.packets
  · rw [hdecoder]
    exact hs.inHand
  · rw [hdecoder]
    exact fun hr ↦ Nat.lt_of_le_of_lt hle (hs.room hr)

theorem Within.step (hs : Within P s) {a : StreamAction} (h : s.step a = some t) :
    Within P t := by
  cases a with
  | decoder => exact hs.decoder_move (decoderMove_of_step h)
  | reader => exact hs.reader_move (readerMove_of_step h)
  | wake p =>
    obtain ⟨-, rfl⟩ := step_wake_cases h
    exact ⟨hs.packets, hs.inHand, hs.room, hs.length⟩
  | setEndOfFile =>
    cases h
    exact ⟨hs.packets, hs.inHand, hs.room, hs.length⟩

/-- **The queue is bounded.** In every reachable state it holds fewer than 88200 samples and one
packet more, though the test and the push are in separate critical sections. -/
theorem length_buffer_le (hP : ∀ p ∈ file.packets, p.length ≤ P) {as : List StreamAction}
    (hrun : machine.run (start file bufs) as = some s) : s.buffer.length ≤ 88199 + P :=
  (machine.run_invariant (I := fun _ s ↦ Within P s) (within_start hP)
    (fun _ _ _ _ _ hs h ↦ hs.step h) hrun).length

/-- One packet of two samples, pushed. -/
theorem length_buffer_le_onePacket :
    ∃ s, machine.run (start ⟨true, true, [[5, 6]], false⟩ []) (List.replicate 8 .decoder) =
        some s ∧ s.buffer = [5, 6] ∧ s.buffer.length ≤ 88199 + 2 := by
  have hle (s : OggStream) (hs : machine.run (start ⟨true, true, [[5, 6]], false⟩ [])
      (List.replicate 8 .decoder) = some s) : s.buffer.length ≤ 88199 + 2 :=
    length_buffer_le (by simp) hs
  exact ⟨_, rfl, rfl, hle _ rfl⟩

end OggStream

end Esp32A2dpPlayer
