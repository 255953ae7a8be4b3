import Esp32A2dpPlayer.Audio.Wakeups

/-!
# What a read accounts for

One call of `read`, from whatever the queue and the flag are when it begins and with whatever
the other side does meanwhile. `Ok(n)` accounts for the samples it took off the queue when these
are `buf[..n]`.

The loop drains in several steps and has two exits. The one at its condition returns
`copy_count`. The early one, when the queue is empty at the end of the stream, returns `Ok(0)`
even where samples have been copied already: these are in `buf`, no longer in the queue, and not
counted.

Which exit a call takes is decided by what it is **offered**: the samples queued when it begins
and those pushed until it returns. A call that is offered as many as its `buf` holds takes the
first exit, and one that is offered fewer has taken all of them when it finds the queue empty.
So a call accounts for what it took exactly if it is offered nothing, or enough to fill its
`buf` (`accounted_iff`), and only the flag makes a call return with less (`endOfFile_of_lt`).
-/

namespace Esp32A2dpPlayer

namespace ReaderPc

/-- The flag as `read` has read it, at the places where it is still to be used. -/
def eosSeen : ReaderPc → Bool
  | .lockBuffer _ eos => eos
  | .checkEmpty _ eos => eos
  | .drain _ eos => eos
  | _ => false

end ReaderPc

namespace OggStream

/-- From `s₀` to `s`, exactly the samples `taken` have left the queue, at its front. -/
def Taken (s₀ s : OggStream) (taken : List Int16) : Prop :=
  ∃ packets, s.pushed = s₀.pushed ++ packets ∧
    s₀.buffer ++ packets.flatten = taken ++ s.buffer

/-- From `s₀` to `s`, exactly `r.n` samples have left the queue, and they are `r.buf[..r.n]`. -/
def Accounted (s₀ s : OggStream) (r : ReadResult) : Prop :=
  r.n ≤ r.buf.length ∧ Taken s₀ s (r.buf.take r.n)

/-- How many samples there were to take from `s₀` to `s`: those queued at `s₀`, and those of the
packets pushed since. -/
def offered (s₀ s : OggStream) : ℕ :=
  s₀.buffer.length + (s.pushed.drop s₀.pushed.length).flatten.length

variable {s₀ s t : OggStream} {taken taken' : List Int16}

/-! ### What has left the queue -/

theorem Taken.refl (s : OggStream) : Taken s s [] := ⟨[], by simp, by simp⟩

theorem Taken.unique (h : Taken s₀ s taken) (h' : Taken s₀ s taken') : taken = taken' := by
  obtain ⟨packets, hp, hb⟩ := h
  obtain ⟨packets', hp', hb'⟩ := h'
  obtain rfl : packets = packets' := List.append_cancel_left (hp.symm.trans hp')
  exact List.append_cancel_right (hb.symm.trans hb')

/-- What was offered has been taken, or is still queued. -/
theorem Taken.offered_eq (h : Taken s₀ s taken) :
    offered s₀ s = taken.length + s.buffer.length := by
  obtain ⟨packets, hp, hb⟩ := h
  rw [offered, hp, List.drop_left, ← List.length_append, hb, List.length_append]

theorem Taken.decoder_move (h : Taken s₀ s taken) (hmove : DecoderMove s t) :
    Taken s₀ t taken := by
  obtain ⟨packets, hp, hb⟩ := h
  cases hmove with
  | @push packet h =>
    refine ⟨packets ++ [packet], ?_, ?_⟩
    · simp only [hp, List.append_assoc]
    · simp only [List.flatten_append, List.flatten_singleton, ← List.append_assoc, hb]
  | _ => exact ⟨packets, hp, hb⟩

/-- A move that neither drains nor pushes. -/
theorem Taken.congr (h : Taken s₀ s taken) (hp : t.pushed = s.pushed)
    (hb : t.buffer = s.buffer) : Taken s₀ t taken := by
  rw [Taken, hp, hb]
  exact h

/-- Draining moves samples from the front of the queue to what has been taken. -/
theorem Taken.drain (h : Taken s₀ s taken) (n : ℕ) (hp : t.pushed = s.pushed)
    (hb : t.buffer = s.buffer.drop n) : Taken s₀ t (taken ++ s.buffer.take n) := by
  obtain ⟨packets, hpushed, hbuffer⟩ := h
  refine ⟨packets, by rw [hp, hpushed], ?_⟩
  rw [hbuffer, hb, List.append_assoc, List.take_append_drop]

/-! ### The call, step by step -/

/-- The call of `read` that gets `buf`, from `s₀` on: about to begin, or under way. -/
structure UnderWay (s₀ : OggStream) (buf : List Int16) (s : OggStream) : Prop where
  next : s.reader = .idle → s.bufs.head? = some buf
  length : ∀ f ∈ s.reader.frame, f.buf.length = buf.length
  bounded : s.reader.Bounded s.buffer
  taken : Taken s₀ s s.reader.inProgress
  /-- The flag is never taken back. -/
  eos : s.reader.eosSeen = true → s.endOfFile = true

variable {buf : List Int16} {bufs : List (List Int16)} {as : List StreamAction}

theorem UnderWay.refl (hreader : s.reader = .idle) (hbufs : s.bufs = buf :: bufs) :
    UnderWay s buf s where
  next := fun _ ↦ by simp [hbufs]
  length := by simp [hreader, ReaderPc.frame]
  bounded := by
    rw [hreader]
    trivial
  taken := by
    rw [hreader]
    exact .refl s
  eos := by simp [hreader, ReaderPc.eosSeen]

/-- The moves of the other side: they only ever add to the queue. -/
theorem UnderWay.decoder_move (h : UnderWay s₀ buf s) (hmove : DecoderMove s t) :
    UnderWay s₀ buf t := by
  obtain ⟨hreader, hbufs, -, heof, data, hbuffer, -⟩ := hmove.frame
  refine ⟨?_, ?_, ?_, ?_, ?_⟩
  · rw [hreader, hbufs]
    exact h.next
  · rw [hreader]
    exact h.length
  · rw [hreader, hbuffer]
    exact h.bounded.append data
  · rw [hreader]
    exact h.taken.decoder_move hmove
  · rw [hreader, heof]
    exact h.eos

/-- The moves of the reader short of a return. -/
theorem UnderWay.reader_move (h : UnderWay s₀ buf s) (hmove : ReaderMove s t)
    (hreturned : t.returned = s.returned) : UnderWay s₀ buf t := by
  have hbounded := bounded_reader_move h.bounded hmove
  obtain ⟨next, length, bounded, taken, eos⟩ := h
  cases hmove with
  | call h hb =>
    rw [h] at taken
    have hbuf := next h
    rw [hb] at hbuf
    obtain rfl := Option.some.inj hbuf
    exact ⟨by simp, by simp [ReaderPc.frame], hbounded, taken, by simp [ReaderPc.eosSeen]⟩
  | readEos h hc =>
    rw [h] at length taken
    exact ⟨by simp, length, hbounded, taken.congr rfl rfl, id⟩
  | return_ h hc | endOfStream h hb => simp [OggStream.return_] at hreturned
  | lockBuffer h _ | nonempty h _ =>
    rw [h] at length taken eos
    exact ⟨by simp, length, hbounded, taken.congr rfl rfl, eos⟩
  | readEosAgain h =>
    rw [h] at length taken
    exact ⟨by simp, length, hbounded, taken.congr rfl rfl, id⟩
  | wait h _ | woken h _ _ | notify h =>
    rw [h] at length taken
    exact ⟨by simp, length, hbounded, taken.congr rfl rfl, by simp [ReaderPc.eosSeen]⟩
  | @drain f eos' copyLen h hn hpos =>
    rw [h] at length taken
    have htaken := taken.drain copyLen (t := { s with
      buffer := s.buffer.drop copyLen
      lock := none
      reader := .copy f (s.buffer.take copyLen) }) rfl rfl
    refine ⟨by simp, length, hbounded, ?_, by simp [ReaderPc.eosSeen]⟩
    simpa [ReaderPc.inProgress, ReaderPc.frame, ReaderPc.drained] using htaken
  | assertFails h hb hn => exact absurd hn (Nat.ne_of_gt (copyLen_pos bounded h hb))
  | @copy f samples h hc =>
    rw [h] at length taken
    have htaken : Taken s₀ s (ReaderPc.inProgress (.notify
        ⟨cloneFromSlice f.buf f.copyCount samples, f.copyCount + samples.length⟩)) := by
      simpa [ReaderPc.inProgress, ReaderPc.frame, ReaderPc.drained, ReadFrame.copied,
        take_cloneFromSlice hc] using taken
    refine ⟨by simp, ?_, hbounded, htaken.congr rfl rfl, by simp [ReaderPc.eosSeen]⟩
    simpa [ReaderPc.frame, length_cloneFromSlice hc] using length
  | sliceFails h hc =>
    rw [h] at bounded
    exact absurd bounded (Nat.not_le.2 hc)

theorem UnderWay.step (h : UnderWay s₀ buf s) {a : StreamAction} (ha : s.step a = some t)
    (hreturned : t.returned = s.returned) : UnderWay s₀ buf t := by
  cases a with
  | decoder => exact h.decoder_move (decoderMove_of_step ha)
  | reader => exact h.reader_move (readerMove_of_step ha) hreturned
  | wake p =>
    obtain ⟨-, rfl⟩ := step_wake_cases ha
    exact ⟨h.next, h.length, h.bounded, h.taken.congr rfl rfl, h.eos⟩
  | setEndOfFile =>
    cases ha
    exact ⟨h.next, h.length, h.bounded, h.taken.congr rfl rfl, fun _ ↦ rfl⟩

/-- As long as no call has returned, the first one is about to begin or under way. -/
theorem underWay_of_run (hreader : s₀.reader = .idle) (hbufs : s₀.bufs = buf :: bufs)
    (hrun : machine.run s₀ as = some s) (hpending : s.returned = s₀.returned) :
    UnderWay s₀ buf s := by
  have hinv : s₀.returned <+: s.returned ∧ (s.returned = s₀.returned → UnderWay s₀ buf s) := by
    refine machine.run_invariant (I := fun _ s ↦ s₀.returned <+: s.returned ∧
      (s.returned = s₀.returned → UnderWay s₀ buf s)) ?_ ?_ hrun
    · exact ⟨List.prefix_rfl, fun _ ↦ .refl hreader hbufs⟩
    · rintro as s a t - ⟨hfront, hunder⟩ ha
      have hgrow := returned_prefix_of_step ha
      refine ⟨hfront.trans hgrow, fun ht ↦ ?_⟩
      -- A step after a return would leave a longer list.
      have hs : s.returned = s₀.returned := by
        rw [ht] at hgrow
        exact hgrow.eq_of_length_le hfront.length_le
      exact (hunder hs).step ha (ht.trans hs.symm)
  exact hinv.2 hpending

/-! ### The return -/

/-- The return of a call, by what it was offered: with a full `buf`, or, once the flag is set,
with `Ok(0)` after everything offered has been taken. -/
theorem UnderWay.cases_of_returned (h : UnderWay s₀ buf s) (hmove : ReaderMove s t)
    {r : ReadResult} (hreturned : t.returned = s.returned ++ [r]) :
    r.buf.length = buf.length ∧
      ((r.n = buf.length ∧ buf.length ≤ offered s₀ t ∧ Taken s₀ t r.buf) ∨
        (r.n = 0 ∧ offered s₀ t < buf.length ∧ t.endOfFile = true ∧
          Taken s₀ t (r.buf.take (offered s₀ t)))) := by
  obtain ⟨-, length, bounded, taken, eos⟩ := h
  cases hmove with
  | @return_ f h hc =>
    obtain rfl : ⟨f.buf, f.copyCount⟩ = r := by simpa [OggStream.return_] using hreturned
    rw [h] at length taken bounded
    have hlength : f.buf.length = buf.length := length f rfl
    have hcount : f.copyCount = f.buf.length := Nat.le_antisymm bounded hc
    -- Everything copied is all of `buf`.
    have htaken : Taken s₀ (s.return_ f f.copyCount) f.buf := by
      refine Taken.congr (s := s) ?_ rfl rfl
      simpa [ReaderPc.inProgress, ReaderPc.frame, ReaderPc.drained, ReadFrame.copied, hcount]
        using taken
    refine ⟨hlength, .inl ⟨hcount.trans hlength, ?_, htaken⟩⟩
    rw [htaken.offered_eq, hlength]
    exact Nat.le_add_right ..
  | @endOfStream f h hb =>
    obtain rfl : ⟨f.buf, 0⟩ = r := by simpa [OggStream.return_] using hreturned
    rw [h] at length taken bounded eos
    have hlength : f.buf.length = buf.length := length f rfl
    have hlt : f.copyCount < f.buf.length := bounded.1
    -- The queue is empty: what was copied is all there was.
    have htaken : Taken s₀ { s.return_ f 0 with lock := none } (f.buf.take f.copyCount) := by
      refine Taken.congr (s := s) ?_ rfl rfl
      simpa [ReaderPc.inProgress, ReaderPc.frame, ReaderPc.drained, ReadFrame.copied] using taken
    have hoffered : offered s₀ { s.return_ f 0 with lock := none } = f.copyCount := by
      rw [htaken.offered_eq, List.length_take, Nat.min_eq_left (Nat.le_of_lt hlt)]
      simp [OggStream.return_, hb]
    rw [hoffered]
    exact ⟨hlength, .inr ⟨rfl, hlength ▸ hlt, eos rfl, htaken⟩⟩
  | _ => simp at hreturned

variable {r : ReadResult}

/-- A call that is offered fewer samples than its `buf` holds returns only once the flag is
set. -/
theorem endOfFile_of_lt (hreader : s₀.reader = .idle) (hbufs : s₀.bufs = buf :: bufs)
    (hrun : machine.run s₀ as = some s) (hpending : s.returned = s₀.returned)
    (hstep : s.step .reader = some t) (hreturned : t.returned = s₀.returned ++ [r])
    (hlt : offered s₀ t < buf.length) : t.endOfFile = true := by
  have hunder := underWay_of_run hreader hbufs hrun hpending
  rw [← hpending] at hreturned
  obtain ⟨-, ⟨-, hle, -⟩ | ⟨-, -, heof, -⟩⟩ :=
    hunder.cases_of_returned (readerMove_of_step hstep) hreturned
  · exact absurd hle (Nat.not_le.2 hlt)
  · exact heof

/-- **What a read accounts for.** From any state before a call, and whatever the other side does
meanwhile: the call returns with what it took off the queue in `buf[..n]` exactly if the samples
queued at first and those pushed until it returns are none, or enough to fill its `buf`. -/
theorem accounted_iff (hreader : s₀.reader = .idle) (hbufs : s₀.bufs = buf :: bufs)
    (hrun : machine.run s₀ as = some s) (hpending : s.returned = s₀.returned)
    (hstep : s.step .reader = some t) (hreturned : t.returned = s₀.returned ++ [r]) :
    Accounted s₀ t r ↔ offered s₀ t = 0 ∨ buf.length ≤ offered s₀ t := by
  have hunder := underWay_of_run hreader hbufs hrun hpending
  rw [← hpending] at hreturned
  obtain ⟨hlength, ⟨hn, hle, htaken⟩ | ⟨hn, hlt, -, htaken⟩⟩ :=
    hunder.cases_of_returned (readerMove_of_step hstep) hreturned
  · refine iff_of_true ⟨Nat.le_of_eq (hn.trans hlength.symm), ?_⟩ (.inr hle)
    rwa [hn, ← hlength, List.take_length]
  · rw [or_iff_left (Nat.not_le.2 hlt), Accounted, hn, List.take_zero,
      and_iff_right (Nat.zero_le _)]
    refine ⟨fun h ↦ ?_, fun h ↦ ?_⟩
    · -- `Ok(0)` says that nothing was taken, and everything offered was.
      have hnil := htaken.unique h
      have hlen := congrArg List.length hnil
      rw [List.length_take, hlength, Nat.min_eq_left (Nat.le_of_lt hlt)] at hlen
      exact hlen
    · rwa [h, List.take_zero] at htaken

/-- One sample queued and a file of one packet more, with a call of `read` to come. -/
def oneQueued : OggStream :=
  { start ⟨true, true, [[8, 9]], false⟩ [[0, 0]] with buffer := [7] }

/-- The call takes the sample that is queued, then the packet is pushed and the flag is set. -/
def pushedMeanwhileRun : List StreamAction :=
  List.replicate 7 .reader ++ List.replicate 8 .decoder ++ [.setEndOfFile] ++
    List.replicate 6 .reader

/-- A `buf` of two samples is filled from the queue and from what is pushed meanwhile. -/
theorem accounted_iff_pushedMeanwhile :
    ∃ s t, machine.run oneQueued pushedMeanwhileRun = some s ∧ s.step .reader = some t ∧
      t.returned = [⟨[7, 8], 2⟩] ∧ t.buffer = [9] ∧
      (Accounted oneQueued t ⟨[7, 8], 2⟩ ↔
        offered oneQueued t = 0 ∨ 2 ≤ offered oneQueued t) ∧ offered oneQueued t = 3 :=
  have hbufs : oneQueued.bufs = [[0, 0]] := rfl
  have hrun : machine.run oneQueued pushedMeanwhileRun = some _ := rfl
  ⟨_, _, hrun, rfl, rfl, rfl, accounted_iff rfl hbufs hrun rfl rfl rfl, rfl⟩

/-- A stream at its end with the given samples queued, and a call of `read` to come. -/
def atEnd (buffer buf : List Int16) : OggStream :=
  { start ⟨true, true, [], false⟩ [buf] with
    buffer, endOfFile := true, decoder := .terminated (.ok ()) }

/-- A `buf` of two samples: the last sample of the stream is taken off the queue, and the call
returns `Ok(0)`. -/
theorem not_accounted_cutShort :
    ∃ s, machine.run (atEnd [7] [0, 0]) (List.replicate 11 .reader) = some s ∧
      s.returned = [⟨[7, 0], 0⟩] ∧ s.buffer = [] ∧
      ¬ Accounted (atEnd [7] [0, 0]) s ⟨[7, 0], 0⟩ := by
  refine ⟨_, rfl, rfl, rfl, ?_⟩
  rintro ⟨-, packets, -, hb⟩
  exact List.cons_ne_nil _ _ hb

end OggStream

end Esp32A2dpPlayer
