import Esp32A2dpPlayer.Bluetooth.PlayedBytes

/-!
# A stream that has been replaced

`play` puts its stream in the place of the one before. Nothing stops the thread of the old stream,
and nothing will read from it again: `PLAY_STATE` only ever moves on to newer streams, and the data
callback reads from the one that is there.

So what the old stream has queued is lost, and whether its thread ever ends is settled when it is
replaced (`replaced_stream`).
-/

namespace Esp32A2dpPlayer

namespace A2dpPlay

variable {s t u : A2dpPlay} {as as' : List PlayAction} {a : PlayAction} {n : ℕ}

/-- Stream `n` has been replaced, and stands as it did in `s` but for the work of its thread. -/
structure Replaced (n : ℕ) (s t : A2dpPlay) : Prop where
  newer : ∃ m, t.playState = some m ∧ n < m
  unread : (t.streams n).Unread
  fits : (t.streams n).FitsUnread ↔ (s.streams n).FitsUnread
  returned : (t.streams n).returned = (s.streams n).returned
  queued : (s.streams n).buffer <+: (t.streams n).buffer
  reads : t.readsOf n = s.readsOf n

/-- The other streams do not matter. -/
theorem Replaced.congr (h : Replaced n s t) (hstate : u.playState = t.playState)
    (hstreams : u.streams n = t.streams n) (hreads : u.readsOf n = t.readsOf n) :
    Replaced n s u := by
  obtain ⟨hnewer, hunread, hfits, hreturned, hqueued, hreads'⟩ := h
  rw [← hstate] at hnewer
  rw [← hstreams] at hunread hfits hreturned hqueued
  exact ⟨hnewer, hunread, hfits, hreturned, hqueued, hreads.trans hreads'⟩

theorem Replaced.move {files : List OggFile} (h : Replaced n s t) (ht : Delivers files t)
    (hmove : Move t a u) : Replaced n s u := by
  obtain ⟨m, hm, hlt⟩ := h.newer
  have hnext : m < t.nextStream := ht.installed m hm
  -- the stream that is read is the one in place
  have hread {k : ℕ} {buf : List UInt8} {len : Int32} (hdata : t.data = .read k buf len) :
      n ≠ k := by
    have hsound := ht.data
    rw [hdata] at hsound
    obtain rfl : m = k := Option.some.inj (hm.symm.trans hsound.1)
    exact Nat.ne_of_lt hlt
  cases hmove with
  | playbackTask _ =>
    exact h.congr rfl (Function.update_of_ne (Nat.ne_of_lt (Nat.lt_trans hlt hnext)) _ _) rfl
  | @sets k hk =>
    have hnewest : k + 1 = t.nextStream := ht.guarded.newest k (by rw [hk]; rfl)
    exact ⟨⟨k, rfl, by omega⟩, h.unread, h.fits, h.returned, h.queued, h.reads⟩
  | dataReturns _ _ _ | noStreamReturns _ =>
    exact h.congr rfl rfl (by simp [PlayStreams.readsOf, PlayStreams.noStreamReturns,
      PlayStreams.dataReturns])
  | callRead _ _ hk =>
    obtain rfl := Option.some.inj (hm.symm.trans hk)
    exact h.congr rfl (Function.update_of_ne (Nat.ne_of_lt hlt) _ _) rfl
  | readStep hdata _ => exact h.congr rfl (Function.update_of_ne (hread hdata) _ _) rfl
  | readReturns hdata _ _ =>
    exact h.congr rfl rfl (PlayStreams.readsOf_readReturns_of_ne (hread hdata))
  | @stream k a b stream ha hk hstep =>
    obtain rfl | hne := eq_or_ne n k
    · have hself : (t.setStream n stream).streams n = stream := Function.update_self ..
      obtain ⟨hunread, hreturned, hqueued, hfits⟩ := h.unread.step hstep
      rw [← hself] at hunread hreturned hqueued hfits
      exact ⟨⟨m, hm, hlt⟩, hunread, hfits.trans h.fits, hreturned.trans h.returned,
        h.queued.trans hqueued, h.reads⟩
    · exact h.congr rfl (Function.update_of_ne hne _ _) rfl
  | _ => exact h.congr rfl rfl rfl

/-- **A replaced stream is lost.** From any state in which a newer stream than `n` is in place, and
in every run from there: no call of the data callback returns anything more from stream `n`,
nothing leaves its queue, and where its thread stops it has ended, if all packets but the last were
going to fit under the limit when the run began, and otherwise waits for good. -/
theorem replaced_stream (h : machine.run new as = some s) {m : ℕ} (hm : s.playState = some m)
    (hn : n < m) (hrun : machine.run s as' = some t) :
    t.readsOf n = s.readsOf n ∧ (t.streams n).returned = (s.streams n).returned ∧
      (s.streams n).buffer <+: (t.streams n).buffer ∧
      ((t.streams n).decoderStep = none →
        ((∃ r, (t.streams n).decoder = .terminated r) ↔ (s.streams n).FitsUnread) ∧
          (¬ (s.streams n).FitsUnread → (t.streams n).DecoderBlocked)) := by
  have hs := delivers_of_run h
  have hlt := Nat.lt_trans hn (hs.installed m hm)
  have hlens : s.data.lens n = [] := hs.data.lens fun hmem ↦
    absurd (Option.some.inj (hm.symm.trans hmem)) (Nat.ne_of_gt hn)
  have hunread := ((hs.serving n _ (List.getElem?_eq_getElem (hs.count ▸ hlt))).unread hlens).1
  have hreplaced : Replaced n s t := by
    refine machine.run_invariant (I := fun _ t ↦ Replaced n s t)
      ⟨⟨m, hm, hn⟩, hunread, Iff.rfl, rfl, List.prefix_refl _, rfl⟩
      (fun as' t a u hrun ht hstep ↦ ?_) hrun
    exact ht.move (delivers_of_run (machine.run_append_eq_some_iff.2 ⟨s, h, hrun⟩))
      (move_of_step hstep)
  obtain ⟨-, hunread, hfits, hreturned, hqueued, hreads⟩ := hreplaced
  refine ⟨hreads, hreturned, hqueued, fun hstop ↦ ?_⟩
  have ht := delivers_of_run (machine.run_append_eq_some_iff.2 ⟨s, h, hrun⟩)
  have hlt : n < (played (as ++ as')).length := by
    rw [played_append, List.length_append, ← hs.count]
    omega
  obtain ⟨⟨bufs, -, hrunning⟩, -⟩ := ht.serving n _ (List.getElem?_eq_getElem hlt)
  rw [← hfits]
  exact hrunning.ends_iff hunread hstop

/-- A file is played and then another one, before anybody has asked for a sample. -/
def twoFiles : List PlayAction :=
  [.playbackTask ⟨true, true, [[5]], false⟩ (.ok ()), .play, .play, .play, .play,
    .mediaCtrl (.ok ()), .event (.mediaCtrlAck .checkSrcRdy .success), .notify, .play, .play,
    .mediaCtrl (.ok ()), .playbackTask ⟨true, true, [[7]], false⟩ (.ok ()), .play, .play]

/-- The thread of the first file still decodes it. -/
theorem replaced_stream_twoFiles : ∃ s t, machine.run new twoFiles = some s ∧
    machine.run s (List.replicate 9 (.decoder 0)) = some t ∧ (t.streams 0).buffer = [5] ∧
      t.readsOf 0 = [] ∧ ∃ r, (t.streams 0).decoder = .terminated r := by
  have hlost (s t : A2dpPlay) (hs : machine.run new twoFiles = some s)
      (ht : machine.run s (List.replicate 9 (.decoder 0)) = some t) (hm : s.playState = some 1)
      (hreads : s.readsOf 0 = []) (hfits : (s.streams 0).toTest.dropLast = [])
      (hqueued : (s.streams 0).queued = 0) (hstop : (t.streams 0).decoderStep = none) :
      t.readsOf 0 = [] ∧ ∃ r, (t.streams 0).decoder = .terminated r := by
    obtain ⟨hreads', -, -, hends⟩ := replaced_stream hs hm Nat.zero_lt_one ht
    refine ⟨hreads'.trans hreads, (hends hstop).1.2 (.inr ?_)⟩
    rw [hfits, hqueued]
    decide
  exact ⟨_, _, rfl, rfl, rfl, hlost _ _ rfl rfl rfl rfl rfl rfl rfl⟩

end A2dpPlay

end Esp32A2dpPlayer
