import Mathlib.Data.Nat.Bitwise
import Mathlib.Tactic.Lemma

/-!
# Authentication types, flags and input types

The string constants of `service/authcommon/type.go` are the constructors of `AuthType`; every
other string is `AuthType.other`, so that the `default` branches of the source keep their
meaning. The same holds of `LimitType`, whose values are read from a JSON file as map keys.

A factor's flag is a single bit, and the bits are distinct (`authTypeToFlag_inj`).
-/

namespace LingmoAuthenticate.AuthCommon

/-! ## Types -/

/-- An authentication type name.
Source: `authcommon/type.go`, the `AuthType…` constants; `other` is any other string. -/
inductive AuthType where
  | password
  | fingerprint
  | face
  | activeDirectory
  | uKey
  | fingerVein
  | iris
  | custom
  | other (name : String)
  deriving DecidableEq, Repr

/-- Where a session comes from; limits are kept apart for the two.
Source: `authcommon/type.go`, `LimitType`; `other` is any other map key of the states file. -/
inductive LimitType where
  | Local
  | Remote
  | other (name : String)
  deriving DecidableEq, Repr

/-- Source: `authcommon/type.go`, `AllAuthTypes`. -/
def allAuthTypes : List AuthType :=
  [.password, .activeDirectory, .fingerprint, .face, .uKey, .iris, .custom]

/-- The position of a type's flag bit, for the types that have one. -/
def AuthType.flagBit? : AuthType → Option ℕ
  | .password => some 0
  | .fingerprint => some 1
  | .face => some 2
  | .activeDirectory => some 3
  | .uKey => some 4
  | .fingerVein => some 5
  | .iris => some 6
  | .custom => some 30
  | .other _ => none

/-- A type's flag: `1 << iota`, with `1 << 30` for the custom type and `0` for an unknown one.
Source: `authcommon/type.go`, `AuthTypeToFlag`. -/
def authTypeToFlag (t : AuthType) : ℕ :=
  match t.flagBit? with
  | some i => 2 ^ i
  | none => 0

/-- Source: `authcommon/type.go`, `InputTypeKeyboard` and the following constants. -/
inductive InputType where
  | keyboard
  | finger
  | cameraFace
  | cameraIris
  | custom
  deriving DecidableEq, Repr

/-- Source: `authcommon/type.go`, `AuthTypeToInputType`. -/
def authTypeToInputType : AuthType → InputType
  | .password | .uKey | .activeDirectory => .keyboard
  | .fingerprint | .fingerVein => .finger
  | .face => .cameraFace
  | .iris => .cameraIris
  | .custom => .custom
  | .other _ => .keyboard

/-- The flag of a whole session. Source: `authcommon/type.go`, `AllAuthenticationFlag`. -/
def allAuthenticationFlag : ℤ := -1

/-- The type name of a flag; the two names that are no types are those of the source.
Source: `authcommon/type.go`, `AuthFlagToType`. -/
def authFlagToType (flag : ℤ) : AuthType :=
  if flag = 1 then .password
  else if flag = 2 then .fingerprint
  else if flag = 4 then .face
  else if flag = 8 then .activeDirectory
  else if flag = 16 then .uKey
  else if flag = 32 then .fingerVein
  else if flag = 64 then .iris
  else if flag = 1073741824 then .custom
  else if flag = allAuthenticationFlag then .other "All"
  else .other "unknown"

/-- The text of a type. Source: `authcommon/type.go`, the `AuthType…` constants. -/
def AuthType.text : AuthType → String
  | .password => "password"
  | .fingerprint => "fingerprint"
  | .face => "face"
  | .activeDirectory => "active directory"
  | .uKey => "usb key"
  | .fingerVein => "finger vein"
  | .iris => "iris"
  | .custom => "custom"
  | .other name => name

/-! ## Flags are distinct bits -/

/-- A flag selects the bit of its type and no other. -/
theorem testBit_authTypeToFlag {t : AuthType} {i : ℕ} :
    (authTypeToFlag t).testBit i = true ↔ t.flagBit? = some i := by
  unfold authTypeToFlag
  rcases h : t.flagBit? with _ | j
  · simp
  · simp [Nat.testBit_two_pow, eq_comm]

/-- The type of a flag bit. -/
def AuthType.ofFlagBit : ℕ → Option AuthType
  | 0 => some .password
  | 1 => some .fingerprint
  | 2 => some .face
  | 3 => some .activeDirectory
  | 4 => some .uKey
  | 5 => some .fingerVein
  | 6 => some .iris
  | 30 => some .custom
  | _ => none

theorem AuthType.ofFlagBit_flagBit? {t : AuthType} {i : ℕ} (h : t.flagBit? = some i) :
    AuthType.ofFlagBit i = some t := by
  cases t <;> cases h <;> rfl

/-- Two types with one bit are the same type. -/
theorem AuthType.flagBit?_inj {t u : AuthType} {i : ℕ} (ht : t.flagBit? = some i)
    (hu : u.flagBit? = some i) : t = u :=
  Option.some.inj ((ofFlagBit_flagBit? ht).symm.trans (ofFlagBit_flagBit? hu))

/-- Every type of the table has a flag. -/
theorem authTypeToFlag_ne_zero_of_mem {t : AuthType} (h : t ∈ allAuthTypes) :
    authTypeToFlag t ≠ 0 := by
  revert t
  decide

/-- A flag is the flag of its type. -/
theorem authFlagToType_authTypeToFlag {t : AuthType} (h : authTypeToFlag t ≠ 0) :
    authFlagToType (authTypeToFlag t) = t := by
  cases t with
  | other name => exact absurd rfl h
  | _ => rfl

/-- A factor is the type of its own flag only. -/
theorem authFlagToType_eq_iff {t u : AuthType} (h : authTypeToFlag t ≠ 0) :
    authFlagToType (authTypeToFlag u) = t ↔ u = t := by
  constructor
  · intro hu
    cases u with
    | other name => exact absurd (hu ▸ rfl) h
    | _ => exact hu
  · rintro rfl
    exact authFlagToType_authTypeToFlag h

/-- A flag selects a type in a mask exactly when the mask has its bit. -/
theorem authTypeToFlag_land_ne_zero {t : AuthType} {mask : ℕ} :
    authTypeToFlag t &&& mask ≠ 0 ↔ ∃ i, t.flagBit? = some i ∧ mask.testBit i = true := by
  unfold authTypeToFlag
  rcases h : t.flagBit? with _ | i
  · simp
  · simp only [Nat.two_pow_and, Option.some.injEq, exists_eq_left']
    cases mask.testBit i <;> simp

/-- Two types with the same non-zero flag are the same type. -/
theorem authTypeToFlag_inj {t u : AuthType} (h0 : authTypeToFlag t ≠ 0)
    (h : authTypeToFlag t = authTypeToFlag u) : t = u := by
  rcases ht : t.flagBit? with _ | i
  · simp [authTypeToFlag, ht] at h0
  · have hi : (authTypeToFlag t).testBit i = true := testBit_authTypeToFlag.mpr ht
    rw [h] at hi
    exact AuthType.flagBit?_inj ht (testBit_authTypeToFlag.mp hi)

end LingmoAuthenticate.AuthCommon
