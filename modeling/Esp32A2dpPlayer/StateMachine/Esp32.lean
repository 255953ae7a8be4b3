import Mathlib.Tactic.SplitIfs

/-!
# NVS and its reference count

`Esp32` of `esp32.rs`: the flash is initialised by the first `nvs_init` and given up by the last
`nvs_deinit`. What the driver calls return is an argument, so a call is a function of the count
and of the driver's answers.
-/

namespace Esp32A2dpPlayer

/-- The errors of the NVS calls. -/
inductive NvsError where
  | esp (code : Int32)
  /-- `bail!("Not initialized")`. -/
  | notInitialized
  deriving DecidableEq

/-- `ESP_ERR_NVS_NO_FREE_PAGES`. -/
def espErrNvsNoFreePages : Int32 := 0x110d

/-- `ESP_ERR_NVS_NEW_VERSION_FOUND`. -/
def espErrNvsNewVersionFound : Int32 := 0x1110

/-- What the driver calls of one `nvs_init` return, in the order they are made. -/
structure NvsInitCalls where
  nvsFlashInit : Except Int32 Unit
  nvsFlashErase : Except Int32 Unit
  /-- The second `nvs_flash_init`, after the erase. -/
  nvsFlashInitAgain : Except Int32 Unit

/-- `Esp32`. -/
structure Esp32 where
  /-- A `usize`, which wraps at 32 bits. -/
  nvsInitializedCount : UInt32
  deriving DecidableEq

namespace Esp32

/-- `Esp32::new`. -/
def new : Esp32 := ⟨0⟩

/-- `nvs_init`. -/
def nvsInit (esp32 : Esp32) (calls : NvsInitCalls) : Except NvsError Unit × Esp32 :=
  let counted : Esp32 := ⟨esp32.nvsInitializedCount + 1⟩
  if esp32.nvsInitializedCount = 0 then
    match calls.nvsFlashInit with
    | .ok _ => (.ok (), counted)
    | .error code =>
      if code = espErrNvsNoFreePages ∨ code = espErrNvsNewVersionFound then
        match calls.nvsFlashErase, calls.nvsFlashInitAgain with
        | .error code, _ => (.error (.esp code), esp32)
        | .ok _, .error code => (.error (.esp code), esp32)
        | .ok _, .ok _ => (.ok (), counted)
      else (.error (.esp code), esp32)
  else (.ok (), counted)

/-- `nvs_deinit`, with what `nvs_flash_deinit` returns if it is called. -/
def nvsDeinit (esp32 : Esp32) (ret : Except Int32 Unit) : Except NvsError Unit × Esp32 :=
  if esp32.nvsInitializedCount = 0 then (.error .notInitialized, esp32)
  else
    let counted : Esp32 := ⟨esp32.nvsInitializedCount - 1⟩
    if counted.nvsInitializedCount = 0 then
      match ret with
      | .error code => (.error (.esp code), counted)
      | .ok _ => (.ok (), counted)
    else (.ok (), counted)

/-- `nvs_init` counts itself if it succeeds, and leaves the count alone if it fails, which it
can only on a count of zero. -/
theorem nvsInit_cases (esp32 : Esp32) (calls : NvsInitCalls) :
    (esp32.nvsInitializedCount = 0 ∧ ∃ e, esp32.nvsInit calls = (.error e, esp32)) ∨
      esp32.nvsInit calls = (.ok (), ⟨esp32.nvsInitializedCount + 1⟩) := by
  unfold nvsInit
  split_ifs with hcount
  · rcases calls.nvsFlashInit with code | _
    · dsimp only
      split_ifs with hcode
      · rcases calls.nvsFlashErase with code | _
        · exact Or.inl ⟨hcount, _, rfl⟩
        · rcases calls.nvsFlashInitAgain with code | _
          · exact Or.inl ⟨hcount, _, rfl⟩
          · exact Or.inr rfl
      · exact Or.inl ⟨hcount, _, rfl⟩
    · exact Or.inr rfl
  · exact Or.inr rfl

/-- `nvs_deinit` fails on a count of zero and takes one off any other. Only the one that takes
it to zero can fail after that. -/
theorem nvsDeinit_cases (esp32 : Esp32) (ret : Except Int32 Unit) :
    (esp32.nvsInitializedCount = 0 ∧ esp32.nvsDeinit ret = (.error .notInitialized, esp32)) ∨
      (esp32.nvsInitializedCount ≠ 0 ∧
        esp32.nvsDeinit ret = (.ok (), ⟨esp32.nvsInitializedCount - 1⟩) ∧
        (esp32.nvsInitializedCount = 1 → ret = .ok ())) ∨
      (esp32.nvsInitializedCount = 1 ∧
        ∃ code, ret = .error code ∧ esp32.nvsDeinit ret = (.error (.esp code), ⟨0⟩)) := by
  obtain ⟨count⟩ := esp32
  by_cases hzero : count = 0
  · exact .inl ⟨hzero, by simp [nvsDeinit, hzero]⟩
  by_cases hone : count = 1
  · subst hone
    cases ret with
    | error code => exact .inr (.inr ⟨rfl, code, rfl, rfl⟩)
    | ok _ => exact .inr (.inl ⟨by simp, rfl, fun _ ↦ rfl⟩)
  · have hsub : count - 1 ≠ 0 := fun h ↦ hone (by rwa [UInt32.sub_eq_iff_eq_add] at h)
    exact .inr (.inl ⟨hzero, by simp [nvsDeinit, hzero, hsub], fun h ↦ absurd h hone⟩)

end Esp32

end Esp32A2dpPlayer
