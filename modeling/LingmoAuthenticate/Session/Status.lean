import LingmoAuthenticate.AuthCommon.AuthType

/-!
# Statuses: `status.go` and the status part of `tx.go`

The codes that a transaction gives to its controller, the device state that each code stands for,
and which codes a controller does not count (`shouldIgnore`, six copies of one test in the source).

`shouldIgnore_iff` and `counted_iff` list the two sides of that test.
-/

namespace LingmoAuthenticate.Session

open AuthCommon

/-- Source: `status.go`, `statusCode`. -/
inductive StatusCode where
  | success
  | failure
  | cancel
  | timeout
  | error
  | verify
  | exception
  | prompt
  | started
  | ended
  | locked
  | recover
  | unlocked
  | unknown
  deriving DecidableEq, Repr

/-- The text of a code. Source: `status.go`, `statusCode.String`. -/
def StatusCode.text : StatusCode → String
  | .success => "Success"
  | .failure => "Failed"
  | .cancel => "Cancel"
  | .timeout => "Timeout"
  | .error => "Error"
  | .verify => "Verifying"
  | .exception => "Device except"
  | .started => "Started"
  | .ended => "Ended"
  | .locked => "Locked"
  | .prompt => "Prompt"
  | .recover => "Recovered"
  | .unlocked => "Unlocked"
  | .unknown => "Unknown status"

/-- Source: `status.go`, `verifyStatus`. -/
structure VerifyStatus where
  s : StatusCode
  msg : String
  deriving DecidableEq, Repr

/-- A status with the text of its code, or with a text of its own.
Source: `status.go`, `newVerifyStatus`. -/
def newVerifyStatus (s : StatusCode) (defaultTr : Bool) (trMsg : String) : VerifyStatus :=
  if defaultTr then ⟨s, s.text⟩ else ⟨s, trMsg⟩

/-- Source: `status.go`, `defaultVerifyStatusEnd`. -/
def defaultVerifyStatusEnd : VerifyStatus := newVerifyStatus .ended true ""

/-- Source: `status.go`, `defaultVerifyStatusStarted`. -/
def defaultVerifyStatusStarted : VerifyStatus := newVerifyStatus .started true ""

/-- Source: `tx.go`, `lockState`. -/
inductive LockState where
  | unlock
  | locked
  deriving DecidableEq, Repr

/-- Source: `tx.go`, `lockState.toStatusCode`. -/
def LockState.toStatusCode : LockState → StatusCode
  | .locked => .locked
  | .unlock => .unlocked

/-- Source: `tx.go`, `devState`. -/
inductive DevState where
  | idle
  | verifying
  | devException
  | ended
  deriving DecidableEq, Repr

/-- The device state that a status stands for. Source: `tx.go`, `statusCodeToDevState`. -/
def statusCodeToDevState : StatusCode → DevState
  | .success | .error | .failure | .locked => .ended
  | .prompt | .verify | .started => .verifying
  | .recover | .unlocked | .ended | .cancel => .idle
  | .timeout | .exception | .unknown => .devException

/-! ## Statuses that are not counted -/

/-- The six kinds of transaction. -/
inductive TxKind where
  | password
  | fingerprint
  | face
  | iris
  | uKey
  | custom
  deriving DecidableEq, Repr

/-- The test that every kind has a copy of. -/
def ignored (status : StatusCode) : Bool :=
  status = .verify || status = .prompt || status = .locked || status = .ended || status = .started

/-- Source: `password_tx.go`, `PasswordTx.shouldIgnore`. -/
def PasswordTx.shouldIgnore (status : StatusCode) : Bool := ignored status

/-- Source: `fingerprint_tx.go`, `FingerprintTx.shouldIgnore`. -/
def FingerprintTx.shouldIgnore (status : StatusCode) : Bool := ignored status

/-- Source: `face_tx.go`, `FaceTx.shouldIgnore`. -/
def FaceTx.shouldIgnore (status : StatusCode) : Bool := ignored status

/-- Source: `iris_tx.go`, `IrisTx.shouldIgnore`. -/
def IrisTx.shouldIgnore (status : StatusCode) : Bool := ignored status

/-- Source: `ukey_tx.go`, `UKeyTx.shouldIgnore`. -/
def UKeyTx.shouldIgnore (status : StatusCode) : Bool := ignored status

/-- Source: `custom_tx.go`, `CustomTx.shouldIgnore`. -/
def CustomTx.shouldIgnore (status : StatusCode) : Bool := ignored status

/-- The method of the transaction behind a `virtualTx`.
Source: `tx.go`, `virtualTx.shouldIgnore`. -/
def TxKind.shouldIgnore : TxKind → StatusCode → Bool
  | .password => PasswordTx.shouldIgnore
  | .fingerprint => FingerprintTx.shouldIgnore
  | .face => FaceTx.shouldIgnore
  | .iris => IrisTx.shouldIgnore
  | .uKey => UKeyTx.shouldIgnore
  | .custom => CustomTx.shouldIgnore

/-- What a controller receives: the copy of a transaction that `giveStatus` makes, with the status
given. Source: `tx.go`, `virtualTx`. -/
structure VirtualTx where
  kind : TxKind
  type0 : AuthType
  status : Option VerifyStatus
  deriving DecidableEq, Repr

/-- The copies agree. -/
theorem TxKind.shouldIgnore_eq (k : TxKind) : k.shouldIgnore = ignored := by
  cases k <;> rfl

/-- The statuses that no controller counts. -/
theorem shouldIgnore_iff {k : TxKind} {s : StatusCode} :
    k.shouldIgnore s = true ↔
      s = .verify ∨ s = .prompt ∨ s = .locked ∨ s = .ended ∨ s = .started := by
  rw [k.shouldIgnore_eq]
  cases s <;> decide

/-- The statuses that every controller counts. -/
theorem counted_iff {k : TxKind} {s : StatusCode} :
    k.shouldIgnore s = false ↔
      s = .success ∨ s = .failure ∨ s = .cancel ∨ s = .timeout ∨ s = .error ∨ s = .exception ∨
        s = .recover ∨ s = .unlocked ∨ s = .unknown := by
  rw [k.shouldIgnore_eq]
  cases s <;> decide

/-! ## What a controller tells its session -/

/-- What reaches the limits from a status. Source: `manager.go`, `UpdateType`. -/
inductive UpdateType where
  | success
  | fail
  | resetAll
  deriving DecidableEq, Repr

/-- A call of `UpdateLimit` for the user of the session. -/
structure LimitUpdate where
  updateType : UpdateType
  type0 : AuthType
  deriving DecidableEq, Repr

/-- Which update of the limits a status leads to, if any.
Source: `session/manager.go`, `Manager.updateLimits`. -/
def updateLimits (status : StatusCode) (authFlag : ℤ) : Option LimitUpdate :=
  if authFlag = allAuthenticationFlag then
    if status = .success then some ⟨.resetAll, authFlagToType authFlag⟩ else none
  else if status = .success then
    if authFlag = authTypeToFlag .password then some ⟨.resetAll, authFlagToType authFlag⟩
    else some ⟨.success, authFlagToType authFlag⟩
  else if status = .failure ∨ status = .exception then some ⟨.fail, authFlagToType authFlag⟩
  else none

/-- A call of a controller on its session: to emit a `Status` signal, or to update the limits by a
status. Source: `verify.go`, `signalProxy`. -/
inductive ProxyCall where
  | emitStatus (authType : ℤ) (status : StatusCode) (msg : String)
  | updateLimits (status : StatusCode) (authFlag : ℤ)
  deriving DecidableEq, Repr

/-- A verdict of the whole session among the calls. -/
def ProxyCall.IsVerdict : ProxyCall → Prop
  | .emitStatus authType status _ =>
      authType = allAuthenticationFlag ∧ (status = .success ∨ status = .failure)
  | .updateLimits _ _ => False

instance (c : ProxyCall) : Decidable c.IsVerdict := by
  cases c <;> unfold ProxyCall.IsVerdict <;> infer_instance

end LingmoAuthenticate.Session
