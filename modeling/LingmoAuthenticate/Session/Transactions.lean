import LingmoAuthenticate.AuthCommon.Device
import LingmoAuthenticate.Lib.Machine
import LingmoAuthenticate.Session.Tx

/-!
# The transactions: `password_tx.go` to `custom_tx.go`

Each kind of transaction as a machine. An action is one call on the transaction, or one move of a
goroutine or of a signal handler that it has started. A `none` is an action that is not enabled: a
call that would block for ever or panic, or a goroutine that is not there. Face and iris
transactions differ in the codes of their drivers only and share `CameraTx`.

`attempt` numbers the attempts of a transaction that were started, and is not part of the program.

* `PasswordTx`, `FingerprintTx`, `CameraTx`, `UKeyTx` and `CustomTx`, each with its actions and the
  step they make.
* `Tx.step` is the step of a transaction of any kind, observed through the statuses it gives.
-/

namespace LingmoAuthenticate.Session

open Lib AuthCommon

/-! ## Passwords -/

/-- Source: `password_tx.go`, `pamSession`; of it the identifier, and whether its channel is
closed. -/
structure PamSession where
  id : ℕ
  ended : Bool
  deriving DecidableEq, Repr

/-- Source: `password_tx.go`, `pamSession.end`. -/
def PamSession.endSession (ps : PamSession) : PamSession := { ps with ended := true }

/-- A goroutine of `doAuth`: the identifier of its session, and the attempt it belongs to. It runs
as long as PAM has not come to a verdict. -/
structure PamAuth where
  id : ℕ
  attempt : ℕ
  deriving DecidableEq, Repr

/-- A password transaction: the PAM session in place, the id of the session whose statuses count, -1
after an `end`, the last id that was given out, and the goroutines of `doAuth` (`running`).
Source: `password_tx.go`, `PasswordTx`. -/
structure PasswordTx extends BaseTx where
  session : Option PamSession
  sessionId : ℤ
  nextSessionId : ℕ
  running : List PamAuth
  deriving DecidableEq, Repr

/-- What happens to a password transaction: a start, for which PAM starts or does not, a token, a
prompt or the verdict of PAM for a goroutine, an `end`, and a lock notification. -/
inductive PasswordAction where
  | authenticate (pamStarts : Bool)
  | setPassword
  | respondPAM (a : PamAuth) (msg : String)
  | doAuth (a : PamAuth) (ok : Bool)
  | endTx (ct : CloseType)
  | setLockState (s : LockState)
  deriving DecidableEq, Repr

namespace PasswordTx

/-- Source: `password_tx.go`, `newPasswordTx`. -/
def new (type0 : AuthType) (lockState : LockState) : PasswordTx :=
  ⟨.init type0 lockState, none, 0, 0, []⟩

/-- Source: `tx.go`, `baseTx.giveStatus`. -/
def giveStatus (pt : PasswordTx) (n : ℕ) (s : VerifyStatus) : PasswordTx :=
  { pt with toBaseTx := pt.toBaseTx.giveStatus n s }

/-- A status of an old session is dropped. Source: `password_tx.go`, `PasswordTx.sendStatus`. -/
def sendStatus (pt : PasswordTx) (a : PamAuth) (s : VerifyStatus) : PasswordTx :=
  if (a.id : ℤ) = pt.sessionId then pt.giveStatus a.attempt s else pt

/-- Where PAM does not start, the call succeeds all the same, and no status is given.
Source: `password_tx.go`, `PasswordTx.authenticate`, with `pamSession.start` and
`pamSession.authenticate`. -/
def authenticate (pt : PasswordTx) (pamStarts : Bool) : PasswordTx :=
  let id := pt.nextSessionId + 1
  let pt := { pt with nextSessionId := id, sessionId := id, session := some ⟨id, false⟩ }
  if pamStarts then
    let a : PamAuth := ⟨id, pt.attempts + 1⟩
    let pt := { pt with attempts := a.attempt, running := a :: pt.running }
    pt.sendStatus a defaultVerifyStatusStarted
  else pt

/-- Source: `password_tx.go`, `PasswordTx.end`. -/
def endTx (pt : PasswordTx) (_ct : CloseType) : PasswordTx :=
  let pt := { pt with session := pt.session.map PamSession.endSession }
  { pt.giveStatus pt.attempts defaultVerifyStatusEnd with sessionId := -1 }

/-- Source: `password_tx.go`, `PasswordTx.setLockState`. -/
def setLockState (pt : PasswordTx) (s : LockState) : Option PasswordTx :=
  setLockStateWith toBaseTx (fun pt b => { pt with toBaseTx := b })
    (fun pt => some (pt.endTx .closeVerify)) s pt

/-- `end` is not called. -/
theorem setLockState_eq (pt : PasswordTx) (s : LockState) :
    pt.setLockState s = some { pt with toBaseTx := pt.notifyLock s } := by
  apply setLockStateWith_eq <;> intros <;> rfl

/-- The token goes to the goroutine of the session; without a session, or on its closed channel,
the call panics. Source: `password_tx.go`, `PasswordTx.setPassword`, with `pamSession.setToken`. -/
def setPassword (pt : PasswordTx) : Option PasswordTx :=
  match pt.session with
  | some ps => if ps.ended then none else some pt
  | none => none

/-- One action. Source: `password_tx.go`; the goroutine is `pamSession.doAuth`, and its prompts are
those of `pamSession.RespondPAM`. -/
def step (pt : PasswordTx) : PasswordAction → Option PasswordTx
  | .authenticate pamStarts => if pt.canStart then some (pt.authenticate pamStarts) else none
  | .setPassword => pt.setPassword
  | .respondPAM a msg =>
      if a ∈ pt.running then some (pt.sendStatus a (newVerifyStatus .prompt false msg)) else none
  | .doAuth a ok =>
      if a ∈ pt.running then
        let pt := { pt with running := pt.running.erase a }
        some (pt.sendStatus a (newVerifyStatus (if ok then .success else .failure) true ""))
      else none
  | .endTx ct => some (pt.endTx ct)
  | .setLockState s => pt.setLockState s

end PasswordTx

/-! ## Fingerprints -/

/-- How the calls of `doVerify` and the signals it waits for turn out; the code `-1` says that it
was told to quit. -/
structure DoVerify where
  verifyErr : Option String
  code : ℤ
  stopErr : Option String
  deriving DecidableEq, Repr

/-- Source: `fingerprint_tx.go`, `FingerprintTx.doVerify`, with the codes of
`pkg/fingerprint/device.go`. -/
def DoVerify.result (d : DoVerify) : Option VerifyStatus :=
  match d.verifyErr, d.stopErr with
  | some err, _ => some (newVerifyStatus .error false err)
  | none, some err => some (newVerifyStatus .error false err)
  | none, none =>
      match d.code with
      | 0 => some (newVerifyStatus .success true "")
      | 1 => some (newVerifyStatus .failure true "")
      | 2 => some (newVerifyStatus .error false "Verify error")
      | _ => none

/-- Source: `fingerprint_tx.go`, `FingerprintTx`; `quit` and `release` say whether the channels are
closed, `running` are the attempts in `verify`, and `pending` those that have left it and have a
result to give. -/
structure FingerprintTx extends BaseTx where
  quit : Bool
  release : Bool
  isEnded : Bool
  running : List ℕ
  pending : List Given
  deriving DecidableEq, Repr

/-- What happens to a fingerprint transaction; where `end` waits for `verify` to return, the action
says how it does. -/
inductive FingerprintAction where
  | authenticate (claimErr : Option String)
  | verify (n : ℕ) (d : DoVerify)
  | give (g : Given)
  | endTx (ct : CloseType) (waited : DoVerify)
  | setLockState (s : LockState) (waited : DoVerify)
  deriving DecidableEq, Repr

namespace FingerprintTx

/-- Source: `fingerprint_tx.go`, `newFingerprintTx`. -/
def new (lockState : LockState) : FingerprintTx :=
  ⟨.init .fingerprint lockState, false, false, false, [], []⟩

/-- Source: `tx.go`, `baseTx.giveStatus`. -/
def giveStatus (ft : FingerprintTx) (n : ℕ) (s : VerifyStatus) : FingerprintTx :=
  { ft with toBaseTx := ft.toBaseTx.giveStatus n s }

/-- Source: `fingerprint_tx.go`, `FingerprintTx.authenticate`, up to its goroutine. -/
def authenticate (ft : FingerprintTx) (claimErr : Option String) : FingerprintTx :=
  match claimErr with
  | some _ => ft
  | none =>
      let n := ft.attempts + 1
      let ft := { ft with
        quit := false, release := false, isEnded := false, attempts := n, running := n :: ft.running }
      (ft.giveStatus n defaultVerifyStatusStarted).giveStatus n
        (newVerifyStatus .prompt false "Verify your fingerprint")

/-- The goroutine of the attempt `n` leaves `verify` and closes the channel `release`, which panics
where another has closed it.
Source: `fingerprint_tx.go`, the goroutine of `FingerprintTx.authenticate`. -/
def verify (ft : FingerprintTx) (n : ℕ) (d : DoVerify) : Option FingerprintTx :=
  if n ∈ ft.running ∧ ft.release = false then
    some { ft with
      release := true
      running := ft.running.erase n
      pending := match d.result with
        | some s => ⟨n, s⟩ :: ft.pending
        | none => ft.pending }
  else none

/-- A goroutine that leaves `verify` has at most a result to give. -/
theorem verify_eq_some {ft ft' : FingerprintTx} {n : ℕ} {d : DoVerify} :
    ft.verify n d = some ft' ↔ (n ∈ ft.running ∧ ft.release = false) ∧
      ft' = { ft with
        release := true
        running := ft.running.erase n
        pending := match d.result with
          | some s => ⟨n, s⟩ :: ft.pending
          | none => ft.pending } := by
  unfold verify
  rw [Option.ite_none_right_eq_some, Option.some.injEq, eq_comm (a := ft')]

/-- Source: `fingerprint_tx.go`, `FingerprintTx.end`. -/
def endTx (ft : FingerprintTx) (_ct : CloseType) (waited : DoVerify) : Option FingerprintTx :=
  if ft.isEnded then some ft
  else
    let quitted :=
      if ft.devState = .verifying then
        if ft.quit then none
        else
          let ft := { ft with quit := true }
          if ft.release then some ft else ft.verify ft.attempts waited
      else some ft
    quitted.map fun ft =>
      { ft.giveStatus ft.attempts defaultVerifyStatusEnd with isEnded := true }

/-- Source: `fingerprint_tx.go`, `FingerprintTx.setLockState`. -/
def setLockState (ft : FingerprintTx) (s : LockState) (waited : DoVerify) :
    Option FingerprintTx :=
  setLockStateWith toBaseTx (fun ft b => { ft with toBaseTx := b })
    (fun ft => ft.endTx .closeVerify waited) s ft

/-- `end` is not called. -/
theorem setLockState_eq (ft : FingerprintTx) (s : LockState) (waited : DoVerify) :
    ft.setLockState s waited = some { ft with toBaseTx := ft.notifyLock s } := by
  apply setLockStateWith_eq <;> intros <;> rfl

/-- One action. Source: `fingerprint_tx.go`. -/
def step (ft : FingerprintTx) : FingerprintAction → Option FingerprintTx
  | .authenticate claimErr => if ft.canStart then some (ft.authenticate claimErr) else none
  | .verify n d => ft.verify n d
  | .give g =>
      if g ∈ ft.pending then
        let ft := { ft with pending := ft.pending.erase g }
        some (ft.giveStatus g.attempt g.status)
      else none
  | .endTx ct waited => ft.endTx ct waited
  | .setLockState s waited => ft.setLockState s waited

end FingerprintTx

/-! ## Cameras -/

/-- The two kinds of camera. -/
inductive CameraType where
  | face
  | iris
  deriving DecidableEq, Repr

/-- The status that a face driver's last code stands for.
Source: `face_tx.go`, `FaceTx.sendDoneResult`. -/
def FaceTx.sendDoneResult : FaceVerifyStatus → StatusCode
  | .success => .success
  | .disconnected => .failure
  | .exception => .exception
  | _ => .unknown

/-- The status that an iris driver's last code stands for.
Source: `iris_tx.go`, `IrisTx.sendDoneResult`. -/
def IrisTx.sendDoneResult : IrisVerifyStatus → StatusCode
  | .success => .success
  | .disconnected => .failure
  | _ => .unknown

namespace CameraType

/-- The factor of a camera. -/
def authType : CameraType → AuthType
  | .face => .face
  | .iris => .iris

/-- Whether a code ends the verification. -/
def isEndedStatus : CameraType → ℤ → Bool
  | .face, code => (FaceVerifyStatus.ofCode code).isEndedStatus
  | .iris, code => (IrisVerifyStatus.ofCode code).isEndedStatus

/-- Whether a code restarts the verification. -/
def isContinue : CameraType → ℤ → Bool
  | .face, code => (FaceVerifyStatus.ofCode code).isContinue
  | .iris, code => (IrisVerifyStatus.ofCode code).isContinue

/-- The status that a last code stands for. -/
def sendDoneResult : CameraType → ℤ → StatusCode
  | .face, code => FaceTx.sendDoneResult (.ofCode code)
  | .iris, code => IrisTx.sendDoneResult (.ofCode code)

/-- The text of a code. -/
def text : CameraType → ℤ → String
  | .face, code => (FaceVerifyStatus.ofCode code).text
  | .iris, code => (IrisVerifyStatus.ofCode code).text

/-- Source: `face_tx.go`, `verifyYourFace`, and `iris_tx.go`, `verifyYourIris`. -/
def prompt : CameraType → String
  | .face => "Verify your face"
  | .iris => "Verify your iris"

/-- Zero is the only code that reports a success. -/
theorem sendDoneResult_eq_success {c : CameraType} {code : ℤ} :
    c.sendDoneResult code = .success ↔ code = 0 := by
  cases c
  · rw [← FaceVerifyStatus.ofCode_eq_success, sendDoneResult]
    cases FaceVerifyStatus.ofCode code <;> simp [FaceTx.sendDoneResult]
  · rw [← IrisVerifyStatus.ofCode_eq_success, sendDoneResult]
    cases IrisVerifyStatus.ofCode code <;> simp [IrisTx.sendDoneResult]

end CameraType

/-- How `verify` returns: with an error before its loop, without a result (told to quit, or the
driver did not start), with a code that ends it, with a failed restart, or after its time. -/
inductive CameraLeave where
  | error (msg : String)
  | quit
  | done (code : ℤ)
  | restart (code : ℤ) (msg : String)
  | timeout
  deriving DecidableEq, Repr

/-- What `verify` gives before it returns, and what it returns.
Source: `face_tx.go`, `FaceTx.verify`, and `iris_tx.go`, `IrisTx.verify`. -/
def CameraLeave.gives (c : CameraType) : CameraLeave → Option VerifyStatus
  | .error _ | .quit => none
  | .done code => some (newVerifyStatus (c.sendDoneResult code) true "")
  | .restart _ msg => some (newVerifyStatus .failure false msg)
  | .timeout => some (newVerifyStatus .failure false "time out")

/-- The result that `verify` returns. -/
def CameraLeave.result : CameraLeave → Option VerifyStatus
  | .error msg => some (newVerifyStatus .error false msg)
  | _ => none

/-- What `verify` returns is an error. -/
theorem CameraLeave.result_error {l : CameraLeave} {s : VerifyStatus} (h : l.result = some s) :
    s.s = .error := by
  cases l <;> cases h
  rfl

/-- Whether the code of a way to return is one that leads there. -/
def CameraLeave.isPossible (c : CameraType) : CameraLeave → Bool
  | .done code => c.isEndedStatus code
  | .restart code _ => !c.isEndedStatus code && c.isContinue code
  | _ => true

/-- A face or iris transaction: `quit` and `release` say whether the channels are closed, where
`none` is the nil channel of a transaction that was never started, `running` is the attempt in
`verify`, and `pending` the one that has left it and has a result to give.
Source: `face_tx.go`, `FaceTx`, and `iris_tx.go`, `IrisTx`. -/
structure CameraTx (c : CameraType) extends BaseTx where
  quit : Option Bool
  release : Option Bool
  isEnded : Bool
  running : Option ℕ
  pending : Option Given
  deriving DecidableEq, Repr

/-- Source: `face_tx.go`, `FaceTx`. -/
abbrev FaceTx := CameraTx .face

/-- Source: `iris_tx.go`, `IrisTx`. -/
abbrev IrisTx := CameraTx .iris

/-- What happens to a face or iris transaction: a start, a code of the driver that is passed on, an
attempt that leaves `verify`, and one that gives its result, an `end` with the way in which the
attempt that it waits for leaves, and a lock notification. -/
inductive CameraAction where
  | authenticate
  | code (code : ℤ)
  | leave (l : CameraLeave)
  | give
  | endTx (ct : CloseType) (waited : CameraLeave)
  | setLockState (s : LockState) (waited : CameraLeave)
  deriving DecidableEq, Repr

namespace CameraTx

variable {c : CameraType}

/-- Source: `face_tx.go`, `newFaceTx`, and `iris_tx.go`, `newIrisTx`. -/
def new (c : CameraType) (lockState : LockState) : CameraTx c :=
  ⟨.init c.authType lockState, none, none, false, none, none⟩

/-- Source: `tx.go`, `baseTx.giveStatus`. -/
def giveStatus (ft : CameraTx c) (n : ℕ) (s : VerifyStatus) : CameraTx c :=
  { ft with toBaseTx := ft.toBaseTx.giveStatus n s }

/-- The lock that the call takes is held until the goroutine is over, so that it blocks while
there is one. Source: `face_tx.go`, `FaceTx.authenticate`, and `iris_tx.go`,
`IrisTx.authenticate`, up to the goroutine. -/
def authenticate (ft : CameraTx c) : Option (CameraTx c) :=
  if ft.running = none ∧ ft.pending = none then
    let n := ft.attempts + 1
    let ft := { ft with
      quit := some false, release := some false, isEnded := false, attempts := n,
      running := some n }
    some ((ft.giveStatus n defaultVerifyStatusStarted).giveStatus n
      (newVerifyStatus .prompt false c.prompt))
  else none

/-- A code that neither ends nor restarts the verification is passed on.
Source: `face_tx.go`, `FaceTx.verify`, and `iris_tx.go`, `IrisTx.verify`, a round of the loop. -/
def code (ft : CameraTx c) (code : ℤ) : Option (CameraTx c) :=
  ft.running.bind fun n =>
    if c.isEndedStatus code then none
    else if c.isContinue code then some ft
    else some (ft.giveStatus n (newVerifyStatus .verify false (c.text code)))

/-- `verify` returns, and the goroutine closes the channel `release`.
Source: `face_tx.go`, the goroutine of `FaceTx.authenticate`, and `iris_tx.go`, that of
`IrisTx.authenticate`. -/
def leave (ft : CameraTx c) (l : CameraLeave) : Option (CameraTx c) :=
  ft.running.bind fun n =>
    if l.isPossible c then
      let ft := match l.gives c with
        | some s => ft.giveStatus n s
        | none => ft
      some { ft with
        release := some true, running := none, pending := l.result.map fun s => ⟨n, s⟩ }
    else none

/-- What a goroutine that leaves `verify` changes besides the status it may give. -/
theorem leave_spec {ft ft' : CameraTx c} {l : CameraLeave}
    (hl : ft.leave l = some ft') :
    ∃ n, ft.running = some n ∧ ft'.running = none ∧ ft'.release = some true ∧
      ft'.quit = ft.quit ∧ ft'.isEnded = ft.isEnded ∧
      ft'.pending = l.result.map (Given.mk n) ∧
      ft'.toBaseTx = (l.gives c).elim ft.toBaseTx (ft.toBaseTx.giveStatus n) := by
  unfold leave at hl
  obtain ⟨n, hn, hl⟩ := Option.bind_eq_some_iff.mp hl
  simp only [Option.ite_none_right_eq_some, Option.some.injEq] at hl
  obtain ⟨-, rfl⟩ := hl
  refine ⟨n, hn, rfl, rfl, ?_, ?_, rfl, ?_⟩
  all_goals cases l.gives c <;> rfl

/-- Source: `face_tx.go`, `FaceTx.end`, and `iris_tx.go`, `IrisTx.end`. -/
def endTx (ft : CameraTx c) (_ct : CloseType) (waited : CameraLeave) : Option (CameraTx c) :=
  if ft.isEnded then some ft
  else
    let quitted :=
      if ft.devState = .verifying then
        if ft.quit = some false then some { ft with quit := some true } else none
      else some ft
    (quitted.bind fun ft =>
      match ft.release with
      | some true => some ft
      | some false => ft.leave waited
      | none => none).map fun ft =>
        { ft.giveStatus ft.attempts defaultVerifyStatusEnd with isEnded := true }

/-- Source: `face_tx.go`, `FaceTx.setLockState`, and `iris_tx.go`, `IrisTx.setLockState`. -/
def setLockState (ft : CameraTx c) (s : LockState) (waited : CameraLeave) :
    Option (CameraTx c) :=
  setLockStateWith toBaseTx (fun ft b => { ft with toBaseTx := b })
    (fun ft => ft.endTx .closeVerify waited) s ft

/-- `end` is not called. -/
theorem setLockState_eq (ft : CameraTx c) (s : LockState) (waited : CameraLeave) :
    ft.setLockState s waited = some { ft with toBaseTx := ft.notifyLock s } := by
  apply setLockStateWith_eq <;> intros <;> rfl

/-- One action. Source: `face_tx.go` and `iris_tx.go`. -/
def step (ft : CameraTx c) : CameraAction → Option (CameraTx c)
  | .authenticate => if ft.canStart then ft.authenticate else none
  | .code code => ft.code code
  | .leave l => ft.leave l
  | .give =>
      ft.pending.map fun g =>
        let ft := { ft with pending := none }
        ft.giveStatus g.attempt g.status
  | .endTx ct waited => ft.endTx ct waited
  | .setLockState s waited => ft.setLockState s waited

end CameraTx

/-! ## Keys -/

/-- Source: `ukey_tx.go`, `stateToStatusCode`. -/
def stateToStatusCode (s : UKeyState) (lost : Bool) : StatusCode :=
  match s with
  | .deviceException => .error
  | .deviceOk => if lost then .recover else .prompt
  | .deviceVerifying => .verify
  | .deviceNotExist => .exception
  | .other _ => .unknown

/-- Source: `ukey_tx.go`, `UKeyTx`; `handlers` says whether its signal handlers are connected, and
`starting` are the attempts whose `StartVerify` has not returned. Four fields are not part of the
program: since the present attempt was started, `failed` tells of a signal that was reported as a
failure, `ended` of a call of `end`, `reported` of a verdict of the service or a call that failed,
and `settled` of any of these. -/
structure UKeyTx extends BaseTx where
  verificationId : String
  deviceLost : Bool
  hasInit : Bool
  listened : Bool
  handlers : Bool
  starting : List ℕ
  failed : Bool
  ended : Bool
  settled : Bool
  reported : Bool
  deriving DecidableEq, Repr

/-- What happens to a key transaction; `constructed` is the answer of `ConstructVerification`, or
the error before it. -/
inductive UKeyAction where
  | authenticate (constructed : Except String String)
  | startVerify (n : ℕ) (err : Option String)
  | verifyResult (id : String) (ok : Bool)
  | state (id : String) (s : UKeyState)
  | setPassword (err : Option String)
  | endTx (ct : CloseType)
  | setLockState (s : LockState)

namespace UKeyTx

/-- Source: `ukey_tx.go`, `newUKeyTx`. -/
def new (lockState : LockState) : UKeyTx :=
  ⟨.init .uKey lockState, "", false, false, false, false, [], false, false, true, true⟩

/-- Source: `tx.go`, `baseTx.giveStatus`. -/
def giveStatus (u : UKeyTx) (n : ℕ) (s : VerifyStatus) : UKeyTx :=
  { u with toBaseTx := u.toBaseTx.giveStatus n s }

/-- Source: `ukey_tx.go`, `UKeyTx.listenSignal`, the connecting of its handlers. -/
def listenSignal (u : UKeyTx) : UKeyTx := { u with handlers := true }

/-- The verification is constructed once, and again after the device was lost. Without one the
call returns an error. Source: `ukey_tx.go`, `UKeyTx.authenticate`, the part under `hasInit`. -/
def construct (u : UKeyTx) (constructed : Except String String) : UKeyTx × Bool :=
  if u.hasInit then (u, true)
  else
    let u := { u with hasInit := true }
    match constructed with
    | .error _ => (u, false)
    | .ok id =>
        let u := { u with verificationId := id }
        (if u.listened then u else { u.listenSignal with listened := true }, true)

/-- Source: `ukey_tx.go`, `UKeyTx.authenticate`, up to its goroutine. -/
def authenticate (u : UKeyTx) (constructed : Except String String) : UKeyTx :=
  let r := u.construct constructed
  if r.2 then
    let n := u.attempts + 1
    let u := { r.1 with
      attempts := n, starting := n :: r.1.starting, failed := false, ended := false,
      settled := false, reported := false }
    u.giveStatus n defaultVerifyStatusStarted
  else r.1

/-- Source: `ukey_tx.go`, `UKeyTx.end`. -/
def endTx (u : UKeyTx) (ct : CloseType) : UKeyTx :=
  let u := { u.giveStatus u.attempts defaultVerifyStatusEnd with ended := true, settled := true }
  if ct = .closeAllResource ∧ u.listened then { u with handlers := false } else u

/-- Ending a verification leaves the handlers connected. -/
theorem endTx_closeVerify (u : UKeyTx) :
    u.endTx .closeVerify =
      { u.giveStatus u.attempts defaultVerifyStatusEnd with ended := true, settled := true } := by
  unfold endTx
  exact if_neg fun h => nomatch h.1

/-- Source: `ukey_tx.go`, `UKeyTx.listenSignal`, the handler of `VerifyResult`. -/
def verifyResult (u : UKeyTx) (id : String) (ok : Bool) : UKeyTx :=
  if id = u.verificationId then
    let u := { u with failed := u.failed || !ok, settled := true, reported := true }
    u.giveStatus u.attempts (newVerifyStatus (if ok then .success else .failure) true "")
  else u

/-- Source: `ukey_tx.go`, `UKeyTx.listenSignal`, the handler of `State`. -/
def state (u : UKeyTx) (id : String) (s : UKeyState) : UKeyTx :=
  if u.verificationId = id then
    let u := if s = .deviceNotExist then { u with failed := true } else u
    let u := u.giveStatus u.attempts (newVerifyStatus (stateToStatusCode s u.deviceLost) false s.text)
    if s = .deviceException ∨ s = .deviceNotExist then
      let u := u.endTx .closeVerify
      if s = .deviceNotExist then { u with deviceLost := true } else u
    else if s = .deviceOk ∧ u.deviceLost then { u with deviceLost := false, hasInit := false }
    else u
  else u

/-- Source: `ukey_tx.go`, `UKeyTx.setLockState`. -/
def setLockState (u : UKeyTx) (s : LockState) : Option UKeyTx :=
  setLockStateWith toBaseTx (fun u b => { u with toBaseTx := b })
    (fun u => some (u.endTx .closeVerify)) s u

/-- `end` is not called. -/
theorem setLockState_eq (u : UKeyTx) (s : LockState) :
    u.setLockState s = some { u with toBaseTx := u.notifyLock s } := by
  apply setLockStateWith_eq <;> intros <;> rfl

/-- What a goroutine gives where its call failed.
Source: `ukey_tx.go`, the goroutines of `UKeyTx.authenticate` and `UKeyTx.setPassword`. -/
def called (u : UKeyTx) (n : ℕ) (err : Option String) : UKeyTx :=
  match err with
  | some err =>
      let u := { u with
        settled := u.settled || n = u.attempts, reported := u.reported || n = u.attempts }
      u.giveStatus n (newVerifyStatus .error false err)
  | none => u

/-- One action. Source: `ukey_tx.go`. -/
def step (u : UKeyTx) : UKeyAction → Option UKeyTx
  | .authenticate constructed => if u.canStart then some (u.authenticate constructed) else none
  | .startVerify n err =>
      if n ∈ u.starting then
        let u := { u with starting := u.starting.erase n }
        some (u.called n err)
      else none
  | .verifyResult id ok => if u.handlers then some (u.verifyResult id ok) else none
  | .state id s => if u.handlers then some (u.state id s) else none
  | .setPassword err => some (u.called u.attempts err)
  | .endTx ct => some (u.endTx ct)
  | .setLockState s => u.setLockState s

end UKeyTx

/-! ## Custom transactions -/

/-- Source: `custom_tx.go`, `CustomTx`; `chanPasswd` says whether the channel is closed, where
`none` is the nil channel of a transaction that was never started, and `running` are the attempts
whose goroutine waits on its channel. -/
structure CustomTx extends BaseTx where
  chanPasswd : Option Bool
  isEnded : Bool
  running : List ℕ
  deriving DecidableEq, Repr

/-- What happens to a custom transaction: a start, a token, an `end`, and a lock notification. -/
inductive CustomAction where
  | authenticate
  | setPassword
  | endTx (ct : CloseType)
  | setLockState (s : LockState)
  deriving DecidableEq, Repr

namespace CustomTx

/-- Source: `custom_tx.go`, `newCustomTx`. -/
def new (lockState : LockState) : CustomTx := ⟨.init .custom lockState, none, false, []⟩

/-- Source: `tx.go`, `baseTx.giveStatus`. -/
def giveStatus (tx : CustomTx) (n : ℕ) (s : VerifyStatus) : CustomTx :=
  { tx with toBaseTx := tx.toBaseTx.giveStatus n s }

/-- Source: `custom_tx.go`, `CustomTx.authenticate`. -/
def authenticate (tx : CustomTx) : CustomTx :=
  let n := tx.attempts + 1
  let tx := { tx with
    chanPasswd := some false, isEnded := false, attempts := n, running := n :: tx.running }
  tx.giveStatus n defaultVerifyStatusStarted

/-- A password that is received is a success; one that no one receives waits.
Source: `custom_tx.go`, `CustomTx.setPassword`, with `CustomTx.verify`. -/
def setPassword (tx : CustomTx) : CustomTx :=
  if tx.isEnded then tx
  else if tx.attempts ∈ tx.running then
    let tx := { tx with running := tx.running.erase tx.attempts }
    tx.giveStatus tx.attempts (newVerifyStatus .success true "")
  else tx

/-- Closing the nil channel panics. Source: `custom_tx.go`, `CustomTx.end`; the goroutine of the
attempt finds its channel closed and gives nothing. -/
def endTx (tx : CustomTx) (_ct : CloseType) : Option CustomTx :=
  if tx.isEnded then some tx
  else if tx.chanPasswd = some false then
    some { tx.giveStatus tx.attempts defaultVerifyStatusEnd with
      isEnded := true, chanPasswd := some true, running := tx.running.erase tx.attempts }
  else none

/-- Source: `custom_tx.go`, `CustomTx.setLockState`. -/
def setLockState (tx : CustomTx) (s : LockState) : Option CustomTx :=
  setLockStateWith toBaseTx (fun tx b => { tx with toBaseTx := b })
    (fun tx => tx.endTx .closeVerify) s tx

/-- `end` is not called. -/
theorem setLockState_eq (tx : CustomTx) (s : LockState) :
    tx.setLockState s = some { tx with toBaseTx := tx.notifyLock s } := by
  apply setLockStateWith_eq <;> intros <;> rfl

/-- One action. Source: `custom_tx.go`. -/
def step (tx : CustomTx) : CustomAction → Option CustomTx
  | .authenticate => if tx.canStart then some tx.authenticate else none
  | .setPassword => some tx.setPassword
  | .endTx ct => tx.endTx ct
  | .setLockState s => tx.setLockState s

end CustomTx

/-! ## A transaction of any kind -/

/-- A transaction of any of the six kinds. Source: `tx.go`, `Tx`. -/
inductive Tx where
  | password (tx : PasswordTx)
  | fingerprint (tx : FingerprintTx)
  | face (tx : FaceTx)
  | iris (tx : IrisTx)
  | uKey (tx : UKeyTx)
  | custom (tx : CustomTx)

/-- What happens to a transaction; one that is of another kind than the transaction is not
enabled. -/
inductive TxAction where
  | password (a : PasswordAction)
  | fingerprint (a : FingerprintAction)
  | camera (a : CameraAction)
  | uKey (a : UKeyAction)
  | custom (a : CustomAction)

namespace Tx

/-- The part that all transactions share. -/
def base : Tx → BaseTx
  | .password tx => tx.toBaseTx
  | .fingerprint tx => tx.toBaseTx
  | .face tx => tx.toBaseTx
  | .iris tx => tx.toBaseTx
  | .uKey tx => tx.toBaseTx
  | .custom tx => tx.toBaseTx

/-- The transaction with another shared part. -/
def withBase : Tx → BaseTx → Tx
  | .password tx, b => .password { tx with toBaseTx := b }
  | .fingerprint tx, b => .fingerprint { tx with toBaseTx := b }
  | .face tx, b => .face { tx with toBaseTx := b }
  | .iris tx, b => .iris { tx with toBaseTx := b }
  | .uKey tx, b => .uKey { tx with toBaseTx := b }
  | .custom tx, b => .custom { tx with toBaseTx := b }

@[simp] theorem base_withBase (tx : Tx) (b : BaseTx) : (tx.withBase b).base = b := by
  cases tx <;> rfl

/-- The kind of a transaction. -/
def kind : Tx → TxKind
  | .password _ => .password
  | .fingerprint _ => .fingerprint
  | .face _ => .face
  | .iris _ => .iris
  | .uKey _ => .uKey
  | .custom _ => .custom

/-- A transaction as a session adds it; the type matters for the password kind, which also serves
Active Directory. Source: `session/manager.go`, `Manager.addTxs`. -/
def new (kind : TxKind) (type0 : AuthType) (lockState : LockState) : Tx :=
  match kind with
  | .password => .password (.new type0 lockState)
  | .fingerprint => .fingerprint (.new lockState)
  | .face => .face (.new .face lockState)
  | .iris => .iris (.new .iris lockState)
  | .uKey => .uKey (.new lockState)
  | .custom => .custom (.new lockState)

/-- One action of a transaction. -/
def call : Tx → TxAction → Option Tx
  | .password tx, .password a => (tx.step a).map .password
  | .fingerprint tx, .fingerprint a => (tx.step a).map .fingerprint
  | .face tx, .camera a => (tx.step a).map .face
  | .iris tx, .camera a => (tx.step a).map .iris
  | .uKey tx, .uKey a => (tx.step a).map .uKey
  | .custom tx, .custom a => (tx.step a).map .custom
  | _, _ => none

/-- The transaction before a call, with nothing sent yet. -/
def clearSent (tx : Tx) : Tx := tx.withBase { tx.base with sent := [] }

/-- One action, observed through the statuses that it sends. -/
def step (tx : Tx) (a : TxAction) : Option (Tx × List Given) :=
  (tx.clearSent.call a).map fun tx => (tx, tx.base.sent)

end Tx

/-- The action that calls `setLockState`; where it would wait for a goroutine, the action says how
that returns. -/
def TxAction.setLockState (kind : TxKind) (s : LockState) (finger : DoVerify)
    (camera : CameraLeave) : TxAction :=
  match kind with
  | .password => .password (.setLockState s)
  | .fingerprint => .fingerprint (.setLockState s finger)
  | .face | .iris => .camera (.setLockState s camera)
  | .uKey => .uKey (.setLockState s)
  | .custom => .custom (.setLockState s)

end LingmoAuthenticate.Session
