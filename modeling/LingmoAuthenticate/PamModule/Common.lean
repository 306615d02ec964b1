import Mathlib.Data.List.Range
import Mathlib.Tactic.Lemma

/-!
# What the PAM module shares: `common.h` and `type.c`

The codes, the types of factors, and the entries of the limits. The position of a type is that of
its lowest bit, which a loop without a bound looks for: `none` is a loop that does not end.

* `typeToIndex_eq_some`: the loop ends at the lowest bit; `typeToIndex_isSome`: it ends exactly for
  what is not zero.
-/

namespace LingmoAuthenticate.PamModule

/-! ## Codes -/

/-- `PAM_SUCCESS`. -/
def pamSuccess : ℤ := 0

/-- `PAM_AUTH_ERR`. -/
def pamAuthErr : ℤ := 7

/-- `PAM_ABORT`. -/
def pamAbort : ℤ := 26

/-- Source: `common.h`, `AT_Password`. -/
def atPassword : ℤ := 1

/-- Source: `common.h`, `AT_Fingerprint`. -/
def atFingerprint : ℤ := 2

/-- Source: `common.h`, `AT_Face`. -/
def atFace : ℤ := 4

/-- Source: `common.h`, `AT_ActiveDirectory`. -/
def atActiveDirectory : ℤ := 8

/-- Source: `common.h`, `AT_Ukey`. -/
def atUkey : ℤ := 16

/-- Source: `common.h`, `AT_Iris`. -/
def atIris : ℤ := 64

/-- Source: `common.h`, `SUPPORT_AT_TYPE`. -/
def supportAtType : ℕ := 7

/-- Source: `common.h`, `MAX_BUF_SIZE`. -/
def maxBufSize : ℕ := 256

/-- Source: `common.h`, `LIMITS_BUF_SIZE`. -/
def limitsBufSize : ℕ := 1024

/-- Source: `common.h`, `AuthStutaCode`; the switches have no default for the `other` codes. -/
inductive AuthStutaCode where
  | success
  | failure
  | cancel
  | timeout
  | error
  | verify
  | expect
  | prompt
  | started
  | ended
  | other (code : ℤ)
  deriving DecidableEq, Repr

/-- The code of a number. Source: `common.h`, `AuthStutaCode`. -/
def AuthStutaCode.ofInt (code : ℤ) : AuthStutaCode :=
  if code = 0 then .success
  else if code = 1 then .failure
  else if code = 2 then .cancel
  else if code = 3 then .timeout
  else if code = 4 then .error
  else if code = 5 then .verify
  else if code = 6 then .expect
  else if code = 7 then .prompt
  else if code = 8 then .started
  else if code = 9 then .ended
  else .other code

/-- Source: `common.h`, `Limit`; `unlockTime` is the text in the buffer. -/
structure Limit where
  maxTries : BitVec 32
  numFailures : BitVec 32
  locked : Bool
  unlockTime : List UInt8
  deriving DecidableEq, Repr

/-! ## Types -/

/-- Source: `type.c`, `type_to_tr`. -/
def typeToTr (authType : ℤ) : String :=
  if authType = atFingerprint then "Fingerprint"
  else if authType = atFace then "Face recognition"
  else if authType = atActiveDirectory then "ActiveDirectory"
  else if authType = atUkey then "PIN"
  else if authType = atIris then "Iris"
  else "Unknown"

/-- Source: `type.c`, `is_input_type`. -/
def isInputType (authType : ℤ) : Bool :=
  authType = atPassword ∨ authType = atUkey ∨ authType = atActiveDirectory

/-- The loop, at `index`, where so many bits are left; after the last the shift is undefined. -/
def typeToIndexLoop (authType : BitVec 32) : ℕ → ℕ → Option ℕ
  | 0, _ => none
  | bits + 1, index =>
      if authType &&& (1#32 <<< index) = 0#32 then typeToIndexLoop authType bits (index + 1)
      else some index

/-- Source: `type.c`, `type_to_index`. -/
def typeToIndex (authType : BitVec 32) : Option ℕ := typeToIndexLoop authType 32 0

/-- `i` is the position of the lowest bit. -/
def IsLowest (authType : BitVec 32) (i : ℕ) : Prop :=
  authType.getLsbD i = true ∧ ∀ j < i, authType.getLsbD j = false

instance (authType : BitVec 32) (i : ℕ) : Decidable (IsLowest authType i) :=
  inferInstanceAs (Decidable (_ ∧ _))

theorem and_shiftLeft_eq_zero_iff {authType : BitVec 32} {i : ℕ} (hi : i < 32) :
    authType &&& (1#32 <<< i) = 0#32 ↔ authType.getLsbD i = false := by
  rw [← BitVec.twoPow_eq, BitVec.and_twoPow]
  cases hbit : authType.getLsbD i with
  | false => simp
  | true =>
      simp only [if_true, Bool.true_eq_false, iff_false]
      intro hzero
      have hget := congrArg (fun b : BitVec 32 => b.getLsbD i) hzero
      simp [hi] at hget

theorem typeToIndexLoop_eq (authType : BitVec 32) (bits index : ℕ) (h : index + bits = 32) :
    typeToIndexLoop authType bits index =
      (List.range' index bits).find? fun i => authType.getLsbD i := by
  induction bits generalizing index with
  | zero => rfl
  | succ bits ih =>
      rw [typeToIndexLoop, List.range'_succ, List.find?_cons, ih (index + 1) (by omega)]
      cases hbit : authType.getLsbD index with
      | false => rw [if_pos ((and_shiftLeft_eq_zero_iff (by omega)).mpr hbit)]
      | true =>
          rw [if_neg]
          rw [and_shiftLeft_eq_zero_iff (by omega), hbit]
          exact Bool.noConfusion

/-- **Where the loop ends.** -/
theorem typeToIndex_eq_some {authType : BitVec 32} {i : ℕ} :
    typeToIndex authType = some i ↔ IsLowest authType i := by
  rw [typeToIndex, typeToIndexLoop_eq authType 32 0 rfl, ← List.range_eq_range',
    List.find?_range_eq_some, IsLowest, List.mem_range]
  constructor
  · rintro ⟨hbit, -, hlow⟩
    exact ⟨hbit, fun j hj => by simpa using hlow j hj⟩
  · rintro ⟨hbit, hlow⟩
    exact ⟨hbit, BitVec.lt_of_getLsbD hbit, fun j hj => by simpa using hlow j hj⟩

/-- **When the loop ends.** -/
theorem typeToIndex_isSome {authType : BitVec 32} :
    (typeToIndex authType).isSome ↔ authType ≠ 0#32 := by
  rw [typeToIndex, typeToIndexLoop_eq authType 32 0 rfl, ← List.range_eq_range',
    List.find?_isSome]
  constructor
  · rintro ⟨i, -, hbit⟩ rfl
    simp at hbit
  · intro hne
    by_contra hnone
    apply hne
    apply BitVec.eq_of_getLsbD_eq
    intro i hi
    rw [BitVec.getLsbD_zero]
    by_contra hbit
    exact hnone ⟨i, List.mem_range.mpr hi, by simpa using hbit⟩

end LingmoAuthenticate.PamModule
