import LingmoAuthenticate.Lib.GoMap
import LingmoAuthenticate.AuthCommon.AuthType

/-!
# Multi-factor configurations: `multifactor/config.go`

A configuration lists the factors that an application asks for, by names of its own (`MfaType`).
`isValidConfig_iff` says what the test of the source accepts: at least one factor, every factor
known, none twice.
-/

namespace LingmoAuthenticate.MultiFactor

open Lib AuthCommon

/-- The name of a factor in a configuration; `other` is any other string.
Source: `multifactor/config.go`, the `authType…` constants. -/
inductive MfaType where
  | password
  | fingerprint
  | face
  | activateDirectory
  | usbKey
  | iris
  | other (name : String)
  deriving DecidableEq, Repr

/-- The name of an application type; `star` is "*". Source: `multifactor/config.go`. -/
inductive AppType where
  | login
  | lock
  | authorization
  | other
  | all
  | star
  | unknown (name : String)
  deriving DecidableEq, Repr

/-- Source: `multifactor/config.go`, `AuthTypeConfig`. -/
structure AuthTypeConfig where
  type : MfaType
  service : String
  deriving DecidableEq, Repr

/-- Source: `multifactor/config.go`, `Config`. -/
structure Config where
  applicationType : AppType
  requestVerificationType : List AuthTypeConfig
  deriving DecidableEq, Repr

/-- Source: `multifactor/config.go`, `mfaTypeToAuthFlag`. -/
def mfaTypeToAuthFlag : MfaType → ℕ
  | .password => authTypeToFlag .password
  | .fingerprint => authTypeToFlag .fingerprint
  | .face => authTypeToFlag .face
  | .activateDirectory => authTypeToFlag .activeDirectory
  | .usbKey => authTypeToFlag .uKey
  | .iris => authTypeToFlag .iris
  | .other _ => 0

/-- Source: `multifactor/config.go`, `AuthTypeToMfaType`. -/
def authTypeToMfaType : AuthType → MfaType
  | .password => .password
  | .fingerprint => .fingerprint
  | .face => .face
  | .activeDirectory => .activateDirectory
  | .uKey => .usbKey
  | .iris => .iris
  | .fingerVein | .custom | .other _ => .other "Unknown"

/-- Source: `multifactor/config.go`, `isSupportedAppType`. -/
def isSupportedAppType : AppType → Bool
  | .login | .lock | .authorization | .other | .all => true
  | .star | .unknown _ => false

/-- Source: `multifactor/config.go`, `isSupportedAuthType`. -/
def isSupportedAuthType : MfaType → Bool
  | .password | .fingerprint | .face | .activateDirectory | .usbKey | .iris => true
  | .other _ => false

/-- The loop of the test: every factor known, and none among those seen.
Source: `multifactor/config.go`, `Config.isValidConfig`. -/
def checkTypes (mapTmp : GoMap MfaType Bool) : List AuthTypeConfig → Bool
  | [] => true
  | atc :: rest =>
      if !isSupportedAuthType atc.type then false
      else if (mapTmp.lookup atc.type).isSome then false
      else checkTypes (mapTmp.insert atc.type true) rest

/-- Source: `multifactor/config.go`, `Config.isValidConfig`. -/
def Config.isValidConfig (c : Config) : Bool :=
  if c.requestVerificationType.length ≤ 0 then false
  else if !isSupportedAppType c.applicationType && c.applicationType ≠ .star then false
  else checkTypes ∅ c.requestVerificationType

/-- The flags of the factors, in the order of the configuration.
Source: `multifactor/multifactor.go`, `GetAuthTypeList`. -/
def getAuthTypeList (c : Config) : List ℕ :=
  c.requestVerificationType.map fun atc => mfaTypeToAuthFlag atc.type

/-- The loop accepts known factors, each once and none seen before. -/
theorem checkTypes_iff {mapTmp : GoMap MfaType Bool} {list : List AuthTypeConfig} :
    checkTypes mapTmp list = true ↔
      (∀ atc ∈ list, isSupportedAuthType atc.type = true ∧ mapTmp.lookup atc.type = none) ∧
        (list.map AuthTypeConfig.type).Nodup := by
  induction list generalizing mapTmp with
  | nil => simp [checkTypes]
  | cons atc list ih =>
      rw [checkTypes]
      rcases hsup : isSupportedAuthType atc.type with _ | _
      · simp [hsup]
      · rcases hseen : mapTmp.lookup atc.type with _ | seen
        · simp only [Bool.not_true, Bool.false_eq_true, if_false, Option.isSome_none, ih,
            List.mem_cons, forall_eq_or_imp, hsup, hseen, true_and, List.map_cons, List.nodup_cons,
            List.mem_map, not_exists, not_and, and_self]
          constructor
          · rintro ⟨hall, hnd⟩
            have hne : ∀ atc' ∈ list, atc'.type ≠ atc.type := by
              intro atc' hmem heq
              have hl := (hall atc' hmem).2
              rw [heq, AList.lookup_insert] at hl
              cases hl
            refine ⟨?_, hne, hnd⟩
            intro atc' hmem
            obtain ⟨hs, hl⟩ := hall atc' hmem
            rw [AList.lookup_insert_ne (hne atc' hmem)] at hl
            exact ⟨hs, hl⟩
          · rintro ⟨hall, hne, hnd⟩
            refine ⟨?_, hnd⟩
            intro atc' hmem
            rw [AList.lookup_insert_ne (hne atc' hmem)]
            exact hall atc' hmem
        · simp [hseen]

/-- **A valid configuration** asks for at least one factor, for known factors only, and for none
twice. -/
theorem isValidConfig_iff {c : Config} :
    c.isValidConfig = true ↔
      c.requestVerificationType ≠ [] ∧
        (isSupportedAppType c.applicationType = true ∨ c.applicationType = .star) ∧
        (∀ atc ∈ c.requestVerificationType, isSupportedAuthType atc.type = true) ∧
        (c.requestVerificationType.map AuthTypeConfig.type).Nodup := by
  unfold Config.isValidConfig
  by_cases hne : c.requestVerificationType = []
  · simp [hne]
  · have hlen : ¬ c.requestVerificationType.length ≤ 0 := by
      simpa using hne
    rw [if_neg hlen]
    by_cases happ : isSupportedAppType c.applicationType = true
    · simp [happ, checkTypes_iff, hne]
    · by_cases hstar : c.applicationType = .star
      · simp [hstar, checkTypes_iff, hne]
      · simp [happ, hstar]

/-- A known factor is the factor of a type, and has the flag of that type. -/
theorem exists_authType {t : MfaType} (h : isSupportedAuthType t = true) :
    ∃ u ∈ allAuthTypes, authTypeToMfaType u = t ∧ mfaTypeToAuthFlag t = authTypeToFlag u := by
  cases t with
  | password => exact ⟨.password, by decide, rfl, rfl⟩
  | fingerprint => exact ⟨.fingerprint, by decide, rfl, rfl⟩
  | face => exact ⟨.face, by decide, rfl, rfl⟩
  | activateDirectory => exact ⟨.activeDirectory, by decide, rfl, rfl⟩
  | usbKey => exact ⟨.uKey, by decide, rfl, rfl⟩
  | iris => exact ⟨.iris, by decide, rfl, rfl⟩
  | other name => cases h

/-- Known factors with one flag are one factor. -/
theorem mfaTypeToAuthFlag_inj {t u : MfaType} (ht : isSupportedAuthType t = true)
    (hu : isSupportedAuthType u = true) (h : mfaTypeToAuthFlag t = mfaTypeToAuthFlag u) :
    t = u := by
  obtain ⟨t', ht', rfl, hft⟩ := exists_authType ht
  obtain ⟨u', -, rfl, hfu⟩ := exists_authType hu
  rw [hft, hfu] at h
  rw [authTypeToFlag_inj (authTypeToFlag_ne_zero_of_mem ht') h]

/-- The flags of a valid configuration are distinct. -/
theorem getAuthTypeList_nodup {c : Config} (h : c.isValidConfig = true) :
    (getAuthTypeList c).Nodup := by
  obtain ⟨-, -, hsup, hnd⟩ := isValidConfig_iff.mp h
  have hmap : getAuthTypeList c =
      (c.requestVerificationType.map AuthTypeConfig.type).map mfaTypeToAuthFlag := by
    simp [getAuthTypeList, Function.comp_def]
  rw [hmap]
  refine List.Nodup.map_on ?_ hnd
  intro t ht u hu htu
  obtain ⟨atc, hatc, rfl⟩ := List.mem_map.mp ht
  obtain ⟨atc', hatc', rfl⟩ := List.mem_map.mp hu
  exact mfaTypeToAuthFlag_inj (hsup atc hatc) (hsup atc' hatc') htu

/-- A flag of a valid configuration is that of a type. -/
theorem exists_type_of_mem {c : Config} (h : c.isValidConfig = true) {f : ℕ}
    (hf : f ∈ getAuthTypeList c) : ∃ u ∈ allAuthTypes, f = authTypeToFlag u := by
  obtain ⟨-, -, hsup, -⟩ := isValidConfig_iff.mp h
  obtain ⟨atc, hatc, rfl⟩ := List.mem_map.mp hf
  obtain ⟨u, hu, -, hfu⟩ := exists_authType (hsup atc hatc)
  exact ⟨u, hu, hfu⟩

end LingmoAuthenticate.MultiFactor
