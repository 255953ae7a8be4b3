import Esp32A2dpPlayer.Concurrency.StepMachine
import Esp32A2dpPlayer.StateMachine.Esp32

/-!
# The count of NVS over any sequence of calls

The purpose of the count: it is the number of `nvs_init` calls that succeeded less the number of
`nvs_deinit` calls that did, and a call that fails leaves it alone. `nvs_init` counts itself
last, after all that can fail. `nvs_deinit` counts itself first, and `nvs_flash_deinit` can
still fail after that. So the count is right exactly if no `nvs_deinit` on a count of one meets
a failing `nvs_flash_deinit`, and no `nvs_init` wraps the count around (`countCorrect_iff`).
-/

namespace Esp32A2dpPlayer

/-- A call on an `Esp32`, with what the driver calls in it return. -/
inductive NvsCall where
  | init (calls : NvsInitCalls)
  | deinit (ret : Except Int32 Unit)

namespace Esp32

/-- Make a call. -/
def call (esp32 : Esp32) : NvsCall → Except NvsError Unit × Esp32
  | .init calls => esp32.nvsInit calls
  | .deinit ret => esp32.nvsDeinit ret

/-- Sequences of calls on one `Esp32`. -/
def calls : StepMachine Esp32 NvsCall := ⟨fun esp32 c ↦ some (esp32.call c).2⟩

/-- The call is an `nvs_init` and returns `Ok`. -/
def okInit (esp32 : Esp32) (c : NvsCall) : Option Unit :=
  match c, (esp32.call c).1 with
  | .init _, .ok _ => some ()
  | _, _ => none

/-- The call is an `nvs_deinit` and returns `Ok`. -/
def okDeinit (esp32 : Esp32) (c : NvsCall) : Option Unit :=
  match c, (esp32.call c).1 with
  | .deinit _, .ok _ => some ()
  | _, _ => none

/-- How many `nvs_init` calls of the sequence return `Ok`. -/
def okInits (esp32 : Esp32) (cs : List NvsCall) : ℕ := (calls.outputs okInit esp32 cs).length

/-- How many `nvs_deinit` calls of the sequence return `Ok`. -/
def okDeinits (esp32 : Esp32) (cs : List NvsCall) : ℕ :=
  (calls.outputs okDeinit esp32 cs).length

/-- A call that returns `Err` leaves the count as it was. -/
def Atomic (esp32 : Esp32) (c : NvsCall) : Prop :=
  ∀ e, (esp32.call c).1 = .error e →
    (esp32.call c).2.nvsInitializedCount = esp32.nvsInitializedCount

/-- After the sequence, the count has grown by the `nvs_init` calls that returned `Ok` less the
`nvs_deinit` calls that did. -/
def Exact (esp32 : Esp32) (cs : List NvsCall) : Prop :=
  ∀ t, calls.run esp32 cs = some t →
    t.nvsInitializedCount.toNat + okDeinits esp32 cs =
      esp32.nvsInitializedCount.toNat + okInits esp32 cs

/-- The count is right all along the sequence. -/
def CountCorrect (esp32 : Esp32) (cs : List NvsCall) : Prop :=
  calls.AllSteps Atomic esp32 cs ∧ ∀ as bs, cs = as ++ bs → Exact esp32 as

/-- An `nvs_init` does not wrap the count around, and the `nvs_deinit` that takes it to zero has
its `nvs_flash_deinit` succeed. -/
def Safe (esp32 : Esp32) : NvsCall → Prop
  | .init _ => esp32.nvsInitializedCount.toNat + 1 < UInt32.size
  | .deinit ret => esp32.nvsInitializedCount = 1 → ret = .ok ()

/-- One call does to the count what it should. -/
def CallExact (esp32 : Esp32) (c : NvsCall) : Prop :=
  Atomic esp32 c ∧
    (esp32.call c).2.nvsInitializedCount.toNat + (esp32.okDeinit c).toList.length =
      esp32.nvsInitializedCount.toNat + (esp32.okInit c).toList.length

variable {esp32 t : Esp32} {cs : List NvsCall}

/-! ### One call -/

theorem callExact_init_iff (calls : NvsInitCalls) :
    CallExact esp32 (.init calls) ↔ Safe esp32 (.init calls) := by
  simp only [CallExact, Atomic, Safe, okInit, okDeinit, call]
  obtain ⟨hzero, e, h⟩ | h := esp32.nvsInit_cases calls
  · -- A call that fails is on a count of zero, which is far from the wrap.
    rw [h, hzero]
    simp [UInt32.size]
  · rw [h]
    have hlt := esp32.nvsInitializedCount.toNat_lt
    simp only [reduceCtorEq, false_implies, implies_true, true_and, Option.toList_none,
      Option.toList_some, List.length_nil, List.length_singleton, UInt32.toNat_add,
      UInt32.toNat_one, UInt32.size]
    omega

theorem callExact_deinit_iff (ret : Except Int32 Unit) :
    CallExact esp32 (.deinit ret) ↔ Safe esp32 (.deinit ret) := by
  simp only [CallExact, Atomic, Safe, okInit, okDeinit, call]
  obtain ⟨hzero, h⟩ | ⟨hne, h, hret⟩ | ⟨hone, code, rfl, h⟩ := esp32.nvsDeinit_cases ret
  · simp [h, hzero]
  · have hpos : 1 ≤ esp32.nvsInitializedCount.toNat :=
      Nat.pos_of_ne_zero fun hz ↦ hne (UInt32.toNat_inj.1 hz)
    have hsub := UInt32.toNat_sub_of_le esp32.nvsInitializedCount 1 hpos
    refine iff_of_true ⟨by simp [h], ?_⟩ hret
    simp only [h, hsub, UInt32.toNat_one, Option.toList_none, Option.toList_some,
      List.length_nil, List.length_singleton]
    omega
  · -- The error comes after the count has gone to zero.
    simp [h, hone]

theorem callExact_iff (esp32 : Esp32) (c : NvsCall) : CallExact esp32 c ↔ Safe esp32 c := by
  cases c with
  | init calls => exact callExact_init_iff calls
  | deinit ret => exact callExact_deinit_iff ret

/-! ### Sequences of calls -/

theorem okInits_concat (hrun : calls.run esp32 cs = some t) (c : NvsCall) :
    okInits esp32 (cs ++ [c]) = okInits esp32 cs + (t.okInit c).toList.length := by
  rw [okInits, calls.outputs_concat okInit hrun, List.length_append, okInits]

theorem okDeinits_concat (hrun : calls.run esp32 cs = some t) (c : NvsCall) :
    okDeinits esp32 (cs ++ [c]) = okDeinits esp32 cs + (t.okDeinit c).toList.length := by
  rw [okDeinits, calls.outputs_concat okDeinit hrun, List.length_append, okDeinits]

theorem run_concat (hrun : calls.run esp32 cs = some t) (c : NvsCall) :
    calls.run esp32 (cs ++ [c]) = some (t.call c).2 :=
  calls.run_concat_eq_some_iff.2 ⟨t, hrun, rfl⟩

/-- If the count is exact before a call and after it, the call did what it should. -/
theorem callExact_of_exact (hrun : calls.run esp32 cs = some t) {c : NvsCall}
    (hatomic : Atomic t c) (hbefore : Exact esp32 cs) (hafter : Exact esp32 (cs ++ [c])) :
    CallExact t c := by
  have hb := hbefore t hrun
  have ha := hafter _ (run_concat hrun c)
  rw [okInits_concat hrun, okDeinits_concat hrun] at ha
  exact ⟨hatomic, by omega⟩

/-- Calls that each do what they should keep the count exact. -/
theorem exact_of_allSteps (h : calls.AllSteps CallExact esp32 cs) : Exact esp32 cs := by
  intro t hrun
  refine calls.run_invariant_of_allSteps
    (I := fun as u ↦ u.nvsInitializedCount.toNat + okDeinits esp32 as =
      esp32.nvsInitializedCount.toNat + okInits esp32 as) rfl ?_ h hrun
  intro as u c v hu hI hc hv
  cases hv
  have hcount := hc.2
  rw [okInits_concat hu, okDeinits_concat hu]
  omega

/-- **When the count is right.** Along any sequence of calls, whatever the driver calls return:
a failing call leaves the count alone and the count is exact, if and only if no `nvs_init` wraps
the count around and no `nvs_deinit` on a count of one has its `nvs_flash_deinit` fail. -/
theorem countCorrect_iff (esp32 : Esp32) (cs : List NvsCall) :
    CountCorrect esp32 cs ↔ calls.AllSteps Safe esp32 cs := by
  rw [← calls.allSteps_congr callExact_iff]
  constructor
  · rintro ⟨hatomic, hexact⟩ as c bs t heq hrun
    exact callExact_of_exact hrun (hatomic as c bs t heq hrun) (hexact as _ heq)
      (hexact (as ++ [c]) bs (by simp [heq]))
  · intro h
    refine ⟨fun as c bs t heq hrun ↦ (h as c bs t heq hrun).1, ?_⟩
    rintro as bs rfl
    exact exact_of_allSteps h.of_append

/-- `nvs_flash_deinit` fails after the only `nvs_init`: `nvs_deinit` returns the error, and the
count is zero already. -/
theorem not_countCorrect_deinitFails :
    (∃ t, calls.run new [.init ⟨.ok (), .ok (), .ok ()⟩] = some t ∧
      t.nvsDeinit (.error 0x1101) = (.error (.esp 0x1101), new)) ∧
      ¬ CountCorrect new [.init ⟨.ok (), .ok (), .ok ()⟩, .deinit (.error 0x1101)] := by
  refine ⟨⟨_, rfl, rfl⟩, ?_⟩
  rintro ⟨-, hexact⟩
  have h := hexact [.init ⟨.ok (), .ok (), .ok ()⟩, .deinit (.error 0x1101)] [] rfl _ rfl
  exact absurd h (by decide)

end Esp32

end Esp32A2dpPlayer
