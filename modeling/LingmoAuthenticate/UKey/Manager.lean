import Mathlib.Algebra.GroupWithZero.Nat
import LingmoAuthenticate.Lib.GoMap

/-!
# The manager of the keys: `ukey/manager.go` and `ukey/interface.go`

Every client constructs a verification, and names it by its id in the calls that follow. The map
of the verifications is all that the manager remembers of them. What a device answers is a
parameter of each call; the signals of the manager are left out.

* `startVerify_of_mem`, `startVerify_of_not_mem`: a call reaches the device where its id is a key of
  the map, and fails for want of the verification elsewhere.
* `mem_deleteVerificationInfo`, `mem_constructVerification`: what the two calls that write the map
  leave in it.
-/

namespace LingmoAuthenticate.UKey

open Lib

/-- A verification: its id, the service of its device and whether that was asked for as the default
one, and the user, with the path of the user's session. The device is left out.
Source: `ukey/manager.go`, `verificationInfo`. -/
structure VerificationInfo where
  id : String
  serviceName : String
  useDefaultService : Bool
  username : String
  uuid : String
  sessionPath : String
  deriving DecidableEq, Repr

/-- How a call on a verification fails. -/
inductive VerifyError where
  | notFound (id : String)
  | device (msg : String)
  deriving DecidableEq, Repr

/-- The text of the error. Source: `ukey/manager.go`, `Manager.getVerificationInfo`. -/
def VerifyError.text : VerifyError → String
  | .notFound id => s!"not found group {id}'s info"
  | .device msg => msg

/-- What `GetUserInfo` finds of a user. -/
structure UserInfo where
  uuid : String
  sessionPath : String
  deriving DecidableEq, Repr

/-- The manager of the verifications: the last id that was given out, a 64-bit number, and the
verifications by their ids. Source: `ukey/manager.go`, `Manager`. -/
structure Manager where
  id : ℕ
  verificationInfoMap : GoMap String VerificationInfo

namespace Manager

/-- Source: `ukey/manager.go`, `newManager`. -/
def new : Manager := ⟨0, ∅⟩

/-- The counter is a Go `uint`. Source: `ukey/manager.go`, `Manager.genId`. -/
def genId (m : Manager) : Manager × String :=
  let id := (m.id + 1) % 2 ^ 64
  ({ m with id }, toString id)

/-- Source: `ukey/manager.go`, `Manager.deleteVerificationInfo`. -/
def deleteVerificationInfo (m : Manager) (id : String) : Manager :=
  { m with verificationInfoMap := m.verificationInfoMap.erase id }

/-- Source: `ukey/manager.go`, `Manager.getVerificationInfo`. -/
def getVerificationInfo (m : Manager) (id : String) : Except VerifyError VerificationInfo :=
  match m.verificationInfoMap.lookup id with
  | some info => .ok info
  | none => .error (.notFound id)

/-- A call that looks the verification up and passes on to its device, which fails or does not. -/
def callDevice (m : Manager) (id : String) (device : Option String) : Option VerifyError :=
  match m.getVerificationInfo id with
  | .ok _ => device.map .device
  | .error err => some err

/-- The device is asked for its state, and then to verify. Source: `ukey/interface.go`,
`Manager.StartVerify`. -/
def startVerify (m : Manager) (id : String) (device : Option String) : Option VerifyError :=
  m.callDevice id device

/-- Source: `ukey/interface.go`, `Manager.SetPin`. -/
def setPin (m : Manager) (id : String) (device : Option String) : Option VerifyError :=
  m.callDevice id device

/-- The verification goes, whatever the device answers.
Source: `ukey/interface.go`, `Manager.StopVerify`. -/
def stopVerify (m : Manager) (id : String) (device : Option String) :
    Manager × Option VerifyError :=
  (m.deleteVerificationInfo id, m.callDevice id device)

/-- `device` is the error of looking for the device, if any.
Source: `ukey/interface.go`, `Manager.ConstructVerification`. -/
def constructVerification (m : Manager) (serviceName username : String) (useDefaultService : Bool)
    (device : Option String) (user : Except String UserInfo) : Manager × Except String String :=
  match device, user with
  | some err, _ => (m, .error err)
  | none, .error err => (m, .error err)
  | none, .ok userInfo =>
      let r := m.genId
      let info : VerificationInfo :=
        ⟨r.2, serviceName, useDefaultService, username, userInfo.uuid, userInfo.sessionPath⟩
      ({ r.1 with verificationInfoMap := r.1.verificationInfoMap.insert r.2 info }, .ok r.2)

/-! ## What the calls find and leave -/

variable {m : Manager} {id : String}

/-- The device is reached where the verification is there. -/
theorem startVerify_of_mem (h : id ∈ m.verificationInfoMap) (device : Option String) :
    m.startVerify id device = device.map .device := by
  obtain ⟨info, hinfo⟩ := Option.isSome_iff_exists.mp (AList.lookup_isSome.mpr h)
  simp only [startVerify, callDevice, getVerificationInfo, hinfo]

theorem startVerify_of_not_mem (h : id ∉ m.verificationInfoMap) (device : Option String) :
    m.startVerify id device = some (.notFound id) := by
  simp only [startVerify, callDevice, getVerificationInfo, AList.lookup_eq_none.mpr h]

/-- A stop takes away one id. -/
theorem mem_deleteVerificationInfo {id' : String} :
    id ∈ (m.deleteVerificationInfo id').verificationInfoMap ↔
      id ≠ id' ∧ id ∈ m.verificationInfoMap := by
  simp only [deleteVerificationInfo, AList.mem_erase]

/-- A verification that was constructed is there, beside the others. -/
theorem mem_constructVerification_ok {m' : Manager} {serviceName username : String}
    {useDefaultService : Bool} {device : Option String} {user : Except String UserInfo}
    (h : m.constructVerification serviceName username useDefaultService device user =
      (m', .ok id)) {id' : String} :
    id' ∈ m'.verificationInfoMap ↔ id' = id ∨ id' ∈ m.verificationInfoMap := by
  rcases device with _ | err <;> rcases user with err | userInfo
  · cases h
  · cases h
    exact AList.mem_insert _
  · cases h
  · cases h

/-- Constructing takes nothing away. -/
theorem mem_constructVerification (h : id ∈ m.verificationInfoMap)
    (serviceName username : String) (useDefaultService : Bool) (device : Option String)
    (user : Except String UserInfo) :
    id ∈ (m.constructVerification serviceName username useDefaultService device
      user).1.verificationInfoMap := by
  rcases device with _ | err <;> rcases user with err | userInfo
  · exact h
  · exact (AList.mem_insert _).mpr (.inr h)
  · exact h
  · exact h

/-- A verification that could not be constructed leaves the map as it was. -/
theorem constructVerification_error {m' : Manager} {serviceName username err : String}
    {useDefaultService : Bool} {device : Option String} {user : Except String UserInfo}
    (h : m.constructVerification serviceName username useDefaultService device user =
      (m', .error err)) : m' = m := by
  rcases device with _ | err <;> rcases user with err | userInfo <;> cases h <;> rfl

end Manager

end LingmoAuthenticate.UKey
