import Esp32A2dpPlayer.Audio.Delivery

/-!
# A stream that nobody reads any more

`play` puts a new stream in the place of the old one, and nothing tells the thread of the old
one. It goes on decoding into a queue that is not read any more, and from the first packet that
finds `bufferLimit` samples queued it waits for a reader for good, with the packet, the queue and
the file in its hands.

Whether it comes to that is settled when the last read returns. All packets but the last one have
to fit under the limit, with what is queued already (`FitsUnread`), and no move of the thread
changes it.
-/

namespace Esp32A2dpPlayer

/-- The samples of a packet that has passed the capacity test and has not been pushed yet. -/
def DecoderPc.passed : DecoderPc → List Int16
  | .lockPush packet => packet
  | .push packet => packet
  | _ => []

namespace OggStream

/-- The packets the thread has yet to test the capacity for. -/
def toTest (s : OggStream) : List (List Int16) :=
  match s.decoder with
  | .openFile => if s.file.opens = true ∧ s.file.decodes = true then s.file.packets else []
  | .newDecoder => if s.file.decodes = true then s.file.packets else []
  | .lockCheck packet | .check packet | .waiting packet => packet :: s.file.packets
  | .nextPacket | .lockPush _ | .push _ | .notify => s.file.packets
  | .terminated _ => []

/-- The samples that are queued when the thread is next at its test, if nobody reads. -/
def queued (s : OggStream) : ℕ := s.buffer.length + s.decoder.passed.length

/-- All packets but the last one fit under the limit together with what is queued. -/
def FitsUnread (s : OggStream) : Prop :=
  s.toTest = [] ∨ s.queued + s.toTest.dropLast.flatten.length < bufferLimit

variable {file : OggFile} {bufs : List (List Int16)} {s t : OggStream}

/-- All calls of `read` have returned, and none is to come. -/
def Unread (s : OggStream) : Prop := s.reader = .idle ∧ s.bufs = []

theorem Unread.readerStep (h : s.Unread) : s.readerStep = none := by
  rw [OggStream.readerStep, h.1, h.2]

/-! ### The thread on its own -/

/-- The test for the next packet passes, and leaves the one behind it to be passed. -/
theorem fits_cons_iff {n : ℕ} (hroom : n < bufferLimit) (packet : List Int16)
    (packets : List (List Int16)) :
    (packet :: packets = [] ∨ n + (packet :: packets).dropLast.flatten.length < bufferLimit) ↔
      (packets = [] ∨ n + packet.length + packets.dropLast.flatten.length < bufferLimit) := by
  rcases packets with - | ⟨next, packets⟩
  · simpa using hroom
  · rw [List.dropLast_cons_of_ne_nil (List.cons_ne_nil next packets), List.flatten_cons,
      List.length_append, Nat.add_assoc]
    simp

/-- **A move of the thread settles nothing.** Whether its packets fit does not change. -/
theorem DecoderMove.fitsUnread_iff (h : DecoderMove s t) : t.FitsUnread ↔ s.FitsUnread := by
  cases h with
  | opened h ho | decodes h hd | notOpened h ho | decodesNot h hd =>
    simp [FitsUnread, toTest, queued, DecoderPc.passed, *]
  | packet h hp | ended h hp => simp [FitsUnread, toTest, queued, DecoderPc.passed, h, hp]
  | lockCheck h _ | wait h _ | woken h _ _ | lockPush h _ | notify h =>
    simp [FitsUnread, toTest, queued, DecoderPc.passed, h]
  | @room packet h hb =>
    have hcons := fits_cons_iff hb packet s.file.packets
    simpa [FitsUnread, toTest, queued, DecoderPc.passed, h] using hcons.symm
  | push h => simp [FitsUnread, toTest, queued, DecoderPc.passed, h]

/-- Nothing leaves the queue of a stream that is not read. -/
theorem Unread.step (hs : s.Unread) {a : StreamAction} (h : s.step a = some t) :
    t.Unread ∧ t.returned = s.returned ∧ s.buffer <+: t.buffer ∧
      (t.FitsUnread ↔ s.FitsUnread) := by
  cases a with
  | decoder =>
    have hmove := decoderMove_of_step h
    obtain ⟨hreader, hbufs, hreturned, -, data, hbuffer, -⟩ := hmove.frame
    exact ⟨⟨hreader.trans hs.1, hbufs.trans hs.2⟩, hreturned, ⟨data, hbuffer.symm⟩,
      hmove.fitsUnread_iff⟩
  | reader =>
    have h : s.readerStep = some t := h
    rw [hs.readerStep] at h
    cases h
  | wake p =>
    obtain ⟨-, rfl⟩ := step_wake_cases h
    exact ⟨hs, rfl, List.prefix_refl _, Iff.rfl⟩
  | setEndOfFile =>
    cases h
    exact ⟨hs, rfl, List.prefix_refl _, Iff.rfl⟩

/-- Where a thread that is not read stops. -/
theorem Running.stopped_unread (h : Running file bufs s) (hs : s.Unread)
    (hstop : s.decoderStep = none) :
    ((∃ r, s.decoder = .terminated r) ∧ s.FitsUnread) ∨ (s.DecoderBlocked ∧ ¬ s.FitsUnread) := by
  obtain ⟨hsync, -⟩ := h.supplied
  have hl := hsync.locked.lock_eq_none hstop hs.readerStep
  obtain ⟨r, hr⟩ | hwait := decoder_stopped hl hstop
  · exact .inl ⟨⟨r, hr⟩, .inl (by simp [toTest, hr])⟩
  · refine .inr ⟨hwait, ?_⟩
    -- nobody is about to notify, so the queue is full
    have hfull : bufferLimit ≤ s.buffer.length := by
      have hwaiting := hsync.noLostWakeup.decoder_waiting hwait
      refine (hsync.noLostWakeup.decoder hwaiting).resolve_right ?_
      rw [hs.1]
      exact id
    obtain ⟨hwaiting, -⟩ := hwait
    cases hpc : s.decoder with
    | waiting packet =>
      simp only [FitsUnread, toTest, queued, DecoderPc.passed, hpc, List.length_nil]
      rintro (hnil | hlt)
      · cases hnil
      · omega
    | _ => simp [hpc, DecoderPc.IsWaiting] at hwaiting

/-- **When the thread of a stream ends that is not read**: where the thread stops it has ended, if
all its packets but the last fit under the limit, and otherwise it waits with no notification
pending. -/
theorem Running.ends_iff (h : Running file bufs s) (hs : s.Unread) (hstop : s.decoderStep = none) :
    ((∃ r, s.decoder = .terminated r) ↔ s.FitsUnread) ∧ (¬ s.FitsUnread → s.DecoderBlocked) := by
  obtain ⟨hends, hfits⟩ | ⟨hblocked, hnot⟩ := h.stopped_unread hs hstop
  · exact ⟨iff_of_true hends hfits, fun hno ↦ absurd hfits hno⟩
  · refine ⟨iff_of_false ?_ hnot, fun _ ↦ hblocked⟩
    rintro ⟨r, hr⟩
    have hwait := hblocked.1
    rw [hr] at hwait
    exact hwait

end OggStream

end Esp32A2dpPlayer
