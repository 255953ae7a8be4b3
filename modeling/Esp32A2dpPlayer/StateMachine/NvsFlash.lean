import Esp32A2dpPlayer.StateMachine.NvsCount

/-!
# NVS while someone holds it

What the count of NVS is for: as long as somebody holds NVS, the flash is initialised, and nobody
erases it or gives it up under them. `FlashCall` is a driver call with what it returned, and
`flash` a flag for the state they leave the flash in. Each of `nvs_init` and `nvs_deinit` is
written once more with the driver calls it makes, and shown to be the function it was
(`nvsInitLogged_snd`, `nvsDeinitLogged_snd`).

The count may be wrong (`not_countCorrect_deinitFails`), but never in a way that hurts a holder:
it is at zero whenever the driver is called (`nvs_usable`).
-/

namespace Esp32A2dpPlayer

/-- A call of the NVS driver. -/
inductive FlashCall where
  | nvsFlashInit (ret : Except Int32 Unit)
  | nvsFlashErase (ret : Except Int32 Unit)
  | nvsFlashDeinit (ret : Except Int32 Unit)
  deriving DecidableEq

/-- Whether the flash is initialised behind a call. -/
def FlashCall.apply (flash : Bool) : FlashCall → Bool
  | .nvsFlashInit (.ok _) => true
  | .nvsFlashDeinit (.ok _) => false
  | _ => flash

namespace Esp32

/-- `nvs_init`, with the driver calls it makes. -/
def nvsInitLogged (esp32 : Esp32) (calls : NvsInitCalls) :
    List FlashCall × Except NvsError Unit × Esp32 :=
  let counted : Esp32 := ⟨esp32.nvsInitializedCount + 1⟩
  if esp32.nvsInitializedCount = 0 then
    match calls.nvsFlashInit with
    | .ok _ => ([.nvsFlashInit (.ok ())], .ok (), counted)
    | .error code =>
      if code = espErrNvsNoFreePages ∨ code = espErrNvsNewVersionFound then
        match calls.nvsFlashErase, calls.nvsFlashInitAgain with
        | .error code', _ =>
          ([.nvsFlashInit (.error code), .nvsFlashErase (.error code')],
            .error (.esp code'), esp32)
        | .ok _, .error code' =>
          ([.nvsFlashInit (.error code), .nvsFlashErase (.ok ()), .nvsFlashInit (.error code')],
            .error (.esp code'), esp32)
        | .ok _, .ok _ =>
          ([.nvsFlashInit (.error code), .nvsFlashErase (.ok ()), .nvsFlashInit (.ok ())],
            .ok (), counted)
      else ([.nvsFlashInit (.error code)], .error (.esp code), esp32)
  else ([], .ok (), counted)

/-- `nvs_deinit`, with the driver calls it makes. -/
def nvsDeinitLogged (esp32 : Esp32) (ret : Except Int32 Unit) :
    List FlashCall × Except NvsError Unit × Esp32 :=
  if esp32.nvsInitializedCount = 0 then ([], .error .notInitialized, esp32)
  else
    let counted : Esp32 := ⟨esp32.nvsInitializedCount - 1⟩
    if counted.nvsInitializedCount = 0 then
      match ret with
      | .error code => ([.nvsFlashDeinit (.error code)], .error (.esp code), counted)
      | .ok _ => ([.nvsFlashDeinit (.ok ())], .ok (), counted)
    else ([], .ok (), counted)

/-- The driver calls that a call on an `Esp32` makes. -/
def driverCalls (esp32 : Esp32) : NvsCall → List FlashCall
  | .init calls => (esp32.nvsInitLogged calls).1
  | .deinit ret => (esp32.nvsDeinitLogged ret).1

theorem nvsInitLogged_snd (esp32 : Esp32) (calls : NvsInitCalls) :
    (esp32.nvsInitLogged calls).2 = esp32.nvsInit calls := by
  unfold nvsInitLogged nvsInit
  split_ifs with hcount
  · rcases calls.nvsFlashInit with code | _
    · dsimp only
      split_ifs with hcode
      · rcases calls.nvsFlashErase with code' | _
        · rfl
        · rcases calls.nvsFlashInitAgain with code' | _ <;> rfl
      · rfl
    · rfl
  · rfl

theorem nvsDeinitLogged_snd (esp32 : Esp32) (ret : Except Int32 Unit) :
    (esp32.nvsDeinitLogged ret).2 = esp32.nvsDeinit ret := by
  unfold nvsDeinitLogged nvsDeinit
  split_ifs with hzero
  · rfl
  · dsimp only
    split_ifs with hone
    · rcases ret with code | _ <;> rfl
    · rfl

end Esp32

/-- An `Esp32` and the flash under it. -/
structure NvsFlash where
  esp32 : Esp32
  flash : Bool

namespace NvsFlash

open Esp32

/-- Sequences of calls on one `Esp32`, with the flash. -/
def machine : StepMachine NvsFlash NvsCall where
  step s c := some ⟨(s.esp32.call c).2, (s.esp32.driverCalls c).foldl FlashCall.apply s.flash⟩

/-- The flash is initialised as long as the count is not zero. -/
def Usable (s : NvsFlash) : Prop := 0 < s.esp32.nvsInitializedCount → s.flash = true

/-- What a call does to the driver and to the count. -/
structure CallSafe (esp32 : Esp32) (c : NvsCall) : Prop where
  erase : ∀ ret, .nvsFlashErase ret ∈ esp32.driverCalls c → esp32.nvsInitializedCount = 0
  init : ∀ ret, .nvsFlashInit ret ∈ esp32.driverCalls c → esp32.nvsInitializedCount = 0
  deinit : ∀ ret, .nvsFlashDeinit ret ∈ esp32.driverCalls c →
    esp32.nvsInitializedCount = 1 ∧ (esp32.call c).2.nvsInitializedCount = 0
  /-- An `nvs_deinit` takes one off the count, and nothing off a count of zero. -/
  count : ∀ ret, c = .deinit ret → (esp32.call c).2.nvsInitializedCount.toNat =
    esp32.nvsInitializedCount.toNat - 1

variable {esp32 : Esp32} {flash : Bool}

/-! ### One call -/

/-- The driver calls of an `nvs_init`: none on a count above zero, and on a count of zero no
`nvs_flash_deinit`, and a successful `nvs_flash_init` last if it returns `Ok`. -/
theorem driverCalls_init (esp32 : Esp32) (calls : NvsInitCalls) :
    (esp32.nvsInitializedCount ≠ 0 ∧ esp32.driverCalls (.init calls) = []) ∨
      (esp32.nvsInitializedCount = 0 ∧
        (∀ ret, .nvsFlashDeinit ret ∉ esp32.driverCalls (.init calls)) ∧
        ((esp32.call (.init calls)).2 = esp32 ∨
          ∃ fs, esp32.driverCalls (.init calls) = fs ++ [.nvsFlashInit (.ok ())])) := by
  simp only [driverCalls, call, ← nvsInitLogged_snd]
  unfold nvsInitLogged
  split_ifs with hcount
  · refine Or.inr ⟨hcount, ?_⟩
    rcases calls.nvsFlashInit with code | _
    · dsimp only
      split_ifs with hcode
      · rcases calls.nvsFlashErase with code' | _
        · exact ⟨by simp, Or.inl rfl⟩
        · rcases calls.nvsFlashInitAgain with code' | _
          · exact ⟨by simp, Or.inl rfl⟩
          · exact ⟨by simp, Or.inr ⟨[_, _], rfl⟩⟩
      · exact ⟨by simp, Or.inl rfl⟩
    · exact ⟨by simp, Or.inr ⟨[], rfl⟩⟩
  · exact Or.inl ⟨hcount, rfl⟩

/-- The driver calls of an `nvs_deinit`: one if it takes the count to zero. -/
theorem driverCalls_deinit (esp32 : Esp32) (ret : Except Int32 Unit) :
    (esp32.nvsInitializedCount = 1 ∧ esp32.driverCalls (.deinit ret) = [.nvsFlashDeinit ret]) ∨
      (esp32.nvsInitializedCount ≠ 1 ∧ esp32.driverCalls (.deinit ret) = []) := by
  obtain ⟨count⟩ := esp32
  simp only [driverCalls]
  by_cases hzero : count = 0
  · exact Or.inr ⟨by simp [hzero], by simp [nvsDeinitLogged, hzero]⟩
  by_cases hone : count = 1
  · subst hone
    refine Or.inl ⟨rfl, ?_⟩
    rcases ret with code | _ <;> rfl
  · have hsub : count - 1 ≠ 0 := fun h ↦ hone (by rwa [UInt32.sub_eq_iff_eq_add] at h)
    exact Or.inr ⟨hone, by simp [nvsDeinitLogged, hzero, hsub]⟩

theorem nvsDeinit_count (esp32 : Esp32) (ret : Except Int32 Unit) :
    (esp32.nvsDeinit ret).2.nvsInitializedCount.toNat =
      esp32.nvsInitializedCount.toNat - 1 := by
  obtain ⟨hzero, h⟩ | ⟨hne, h, -⟩ | ⟨hone, code, -, h⟩ := esp32.nvsDeinit_cases ret
  · rw [h, hzero]
    rfl
  · have hpos : 1 ≤ esp32.nvsInitializedCount.toNat :=
      Nat.pos_of_ne_zero fun hz ↦ hne (UInt32.toNat_inj.1 hz)
    rw [h]
    exact UInt32.toNat_sub_of_le esp32.nvsInitializedCount 1 hpos
  · rw [h, hone]
    rfl

/-- Every call is safe, reachable or not. -/
theorem callSafe (esp32 : Esp32) (c : NvsCall) : CallSafe esp32 c := by
  cases c with
  | init calls =>
    obtain ⟨-, hnone⟩ | ⟨hzero, hno, -⟩ := driverCalls_init esp32 calls
    · exact ⟨by simp [hnone], by simp [hnone], by simp [hnone], by simp⟩
    · exact ⟨fun _ _ ↦ hzero, fun _ _ ↦ hzero, fun ret hret ↦ absurd hret (hno ret), by simp⟩
  | deinit ret =>
    have hcount := nvsDeinit_count esp32 ret
    obtain ⟨hone, hcalls⟩ | ⟨-, hnone⟩ := driverCalls_deinit esp32 ret
    · refine ⟨by simp [hcalls], by simp [hcalls], fun _ _ ↦ ⟨hone, ?_⟩, fun _ _ ↦ hcount⟩
      rw [hone] at hcount
      exact UInt32.toNat_inj.1 hcount
    · exact ⟨by simp [hnone], by simp [hnone], by simp [hnone], fun _ _ ↦ hcount⟩

/-- A call keeps the flash usable. -/
theorem usable_step {s t : NvsFlash} (hs : s.Usable) {c : NvsCall}
    (h : machine.step s c = some t) : t.Usable := by
  cases h
  intro hpos
  cases c with
  | init calls =>
    obtain ⟨hne, hnone⟩ | ⟨hzero, -, hsame | ⟨fs, hlast⟩⟩ := driverCalls_init s.esp32 calls
    · rw [hnone]
      exact hs (UInt32.pos_iff_ne_zero.2 hne)
    · rw [hsame, hzero] at hpos
      exact absurd hpos (by decide)
    · rw [hlast, List.foldl_append]
      rfl
  | deinit ret =>
    have hcount := nvsDeinit_count s.esp32 ret
    have hpos' : 0 < (s.esp32.nvsDeinit ret).2.nvsInitializedCount.toNat := hpos
    obtain ⟨hone, -⟩ | ⟨-, hnone⟩ := driverCalls_deinit s.esp32 ret
    · rw [hone] at hcount
      exact absurd hcount (Nat.ne_of_gt hpos')
    · rw [hnone]
      exact hs (UInt32.lt_iff_toNat_lt.2 (by rw [UInt32.toNat_zero]; omega))

/-- **NVS is usable while someone holds it.** After every sequence of calls on a new `Esp32`,
whatever the driver calls return and whatever state the flash is in at first: the flash is
initialised if the count is above zero. And every call of the sequence erases or initialises the
flash on a count of zero only, gives it up only when it takes the count from one to zero, and
takes nothing off a count of zero. -/
theorem nvs_usable {cs : List NvsCall} {s : NvsFlash}
    (h : machine.run ⟨new, flash⟩ cs = some s) :
    s.Usable ∧ machine.AllSteps (fun t c ↦ CallSafe t.esp32 c) ⟨new, flash⟩ cs := by
  refine ⟨?_, fun _ c _ t _ _ ↦ callSafe t.esp32 c⟩
  refine machine.run_invariant (I := fun _ t ↦ t.Usable) ?_ (fun _ _ _ _ _ ht ↦ usable_step ht) h
  exact fun hpos ↦ absurd hpos (UInt32.lt_irrefl 0)

/-- Two holders on a flash that has to be erased first, and one of them leaves. -/
def twoHolders : List NvsCall :=
  [.init ⟨.error espErrNvsNoFreePages, .ok (), .ok ()⟩, .init ⟨.ok (), .ok (), .ok ()⟩,
    .deinit (.ok ())]

theorem nvs_usable_two : ∃ s, machine.run ⟨new, false⟩ twoHolders = some s ∧
    s = ⟨⟨1⟩, true⟩ ∧ s.Usable ∧
      machine.AllSteps (fun t c ↦ CallSafe t.esp32 c) ⟨new, false⟩ twoHolders := by
  have hrun : machine.run ⟨new, false⟩ twoHolders = some ⟨⟨1⟩, true⟩ := rfl
  obtain ⟨husable, hsafe⟩ := nvs_usable hrun
  exact ⟨_, hrun, rfl, husable, hsafe⟩

end NvsFlash

end Esp32A2dpPlayer
