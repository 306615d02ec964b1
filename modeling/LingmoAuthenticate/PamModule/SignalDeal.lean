import LingmoAuthenticate.PamModule.Factors
import LingmoAuthenticate.PamModule.LimitPrompt

/-!
# The handlers of the `Status` signal

`mfa_signal_deal` and `sfa_signal_deal` return the result that the loop of `pam_sm_authenticate` is
to end with, or -1 to go on; `bus_signal_cb` writes it to `ud->res`.

* `SignalEnv` is what the calls to other libraries return during one handler.
* A handler is a function on `UserData`, with the calls and the messages that it makes, in order.
  `none` is what C leaves undefined: a write past `failedIndexs`, or a shift past the last bit.
* Texts stand as they are before `gettext`.
-/

namespace LingmoAuthenticate.PamModule

open Lib

/-! ## The data of a login -/

/-- The style of a message. -/
inductive MsgStyle where
  | pamTextInfo
  | pamErrorMsg
  deriving DecidableEq, Repr

/-- Of the data of a login, what the handlers read and write: `pid` is whether a token thread has
been created, `failedIndexs` has the first `failed_num` elements.
Source: `common.h`, `UserData`. -/
structure UserData where
  term : Bool
  prompt : String
  pid : Bool
  curType : ℤ
  needCancel : Bool
  limits : ℕ → Limit
  failedIndexs : List ℤ
  authCtrl : AuthSession
  res : ℤ

/-- A `Status` signal of the session: the type or types that it is about, its code and its text.
Source: `sfa.c` and `mfa.c`, the arguments of `sfa_signal_deal` and `mfa_signal_deal`. -/
structure StatusSignal where
  authType : ℤ
  code : AuthStutaCode
  msg : String
  deriving DecidableEq, Repr

/-- A message of a verification, decoded; the inner message has a subcode. -/
structure VerifyMsg where
  flag : ℤ
  code : ℤ
  subcode : Option ℤ
  deriving DecidableEq, Repr

/-- What the handler of one signal gets from outside: whether the signal can be read, whether
`Start` succeeds, whether the token thread created last is still there, whether another can be
created, the limits after `get_limits_info`, the offset of the zone and the time by which a limit is
waited for, and the decoder of verification messages. -/
structure SignalEnv where
  readable : Bool
  startOk : Bool
  alive : Bool
  threadOk : Bool
  limits : ℕ → Limit
  zone : ℤ
  now : ℤ
  parse : String → Option VerifyMsg

/-- What a handler does: calls of `Start` and `End` to the session, with flags that it takes from
the signal, messages to the user, and the making of a token thread. -/
inductive PamCall where
  | start (flags : ℤ) (timeout : ℤ)
  | end_ (flag : ℤ)
  | sendMsg (msg : String) (style : MsgStyle)
  | requestPw
  deriving DecidableEq, Repr

/-! ## Messages -/

/-- Source: `utils.c`, `resolve_verify_msg`; the subcodes of an error are not read, so that there is
no message for one. -/
def resolveVerifyMsg (m : VerifyMsg) : Option (String × MsgStyle) :=
  if m.flag ≠ atFingerprint then none
  else if m.code = 3 then
    match m.subcode with
    | some 1 => some ("Clean your finger and try again", .pamErrorMsg)
    | some 2 => some ("Finger not centered", .pamErrorMsg)
    | some 3 => some ("Clean your finger and try again", .pamErrorMsg)
    | some 4 => some ("Unclear fingerprint, please clean your finger and try again", .pamErrorMsg)
    | some 5 => some ("Finger moved too fast, please do not lift until prompted", .pamErrorMsg)
    | _ => none
  else if m.code = 5 then some ("Password", .pamTextInfo)
  else none

/-- The branch `ASC_Verify` of both handlers. -/
def verifyCalls (env : SignalEnv) (signalMsg : String) : List PamCall :=
  match (env.parse signalMsg).bind resolveVerifyMsg with
  | none => []
  | some (msg, style) => [.sendMsg msg style]

/-- On a terminal, the message about a type that is not typed in starts a line of its own. -/
def newline (ud : UserData) (authType : ℤ) : String :=
  if isInputType authType = false ∧ ud.term then "\n" else ""

/-- What `get_limit_prompt` writes of a limit that is locked, as a text. -/
def limitPrompt (env : SignalEnv) (limit : Limit) : String :=
  let buff := (getLimitPrompt id env.zone env.now limit).1.getD []
  String.ofList (buff.map JsonText.charOf)

/-- The message about a failed type and its limit. Source: `sfa.c`, `sfa_signal_deal`. -/
def failureMsg (env : SignalEnv) (ud : UserData) (failType : ℤ) (limit : Limit) : String :=
  if limit.locked then
    if failType ≠ atPassword then
      newline ud failType ++ s!"{typeToTr failType} locked, use password please"
    else s!"Password locked, {limitPrompt env limit}"
  else
    let times := (limit.maxTries - limit.numFailures).toInt
    if times > 1 then
      if failType = atPassword then s!"Password verification failed, {times} chances left"
      else newline ud failType ++ s!"{typeToTr failType} verification failed, {times} chances left"
    else if failType = atPassword then "Password verification failed, only one chance left"
    else newline ud failType ++ s!"{typeToTr failType} verification failed, only one chance left"

/-- The prompt for something that is typed in on a terminal ends with a colon.
Source: `mfa.c`, the branch `ASC_Prompt`. -/
def withColon (signalMsg : String) : String :=
  match signalMsg.toUTF8.toList.reverse with
  | 0x20 :: 0x3a :: _ => signalMsg
  | 0x3a :: _ => signalMsg
  | 0x9a :: _ => signalMsg
  | _ => signalMsg ++ ":"

/-! ## Several factors in order -/

/-- Start the factor at a position of the order, if there is one.
Source: `mfa.c`, `mfa_start_verify`. -/
def mfaStartVerify (env : SignalEnv) (ud : UserData) (index : ℕ) (timeout : ℤ) :
    UserData × ℤ × List PamCall :=
  match ud.authCtrl.types[index]? with
  | none => (ud, pamAbort, [])
  | some authType =>
      ({ ud with curType := authType }, if env.startOk then pamSuccess else pamAbort,
        [.start authType timeout])

/-- A token thread is asked for, unless there is one. Source: the branches `ASC_Prompt`. -/
def createTokenThread (env : SignalEnv) (ud : UserData) (prompt : String) :
    UserData × ℤ × List PamCall :=
  if ud.pid = true ∧ env.alive = true then (ud, pamAbort, [])
  else if env.threadOk then ({ ud with prompt := prompt, pid := true }, -1, [.requestPw])
  else ({ ud with prompt := prompt }, pamAbort, [])

/-- A factor has succeeded: the next one is started, after the end of this one. The loop over the
order looks for the current type. Source: `mfa.c`, the branch `ASC_Success`. -/
def mfaNext (env : SignalEnv) (ud : UserData) (authType : ℤ) : UserData × ℤ × List PamCall :=
  if authType = ud.curType then
    let idx := ud.authCtrl.types.findIdx (· = ud.curType)
    if idx = ud.authCtrl.factorSize then (ud, pamAbort, [])
    else if idx = ud.authCtrl.factorSize - 1 then (ud, -1, [])
    else
      let r := mfaStartVerify env ud (idx + 1) (-1)
      (r.1, if r.2.1 ≠ pamSuccess then r.2.1 else -1, .end_ authType :: r.2.2)
  else (ud, -1, [])

/-- The data, what is returned, and what is done. Source: `mfa.c`, `mfa_signal_deal`. -/
def mfaSignalDeal (env : SignalEnv) (ud : UserData) (signal : StatusSignal) :
    UserData × ℤ × List PamCall :=
  match signal.code with
  | .success =>
      if signal.authType ≠ -1 then
        let r := mfaNext env ud signal.authType
        (r.1, r.2.1, .sendMsg "Verification successful" .pamTextInfo :: r.2.2)
      else ({ ud with needCancel := false }, pamSuccess, [])
  | .failure =>
      if signal.authType ≠ -1 then
        let msg := if signal.authType = atPassword then "Password verification failed"
          else newline ud signal.authType ++ s!"{typeToTr signal.authType} verification failed"
        ({ ud with needCancel := false }, pamAuthErr, [.sendMsg msg .pamErrorMsg])
      else (ud, -1, [])
  | .cancel | .timeout | .error => ({ ud with needCancel := false }, -1, [])
  | .verify => (ud, -1, verifyCalls env signal.msg)
  | .prompt =>
      if signal.authType = -1 then (ud, -1, [.sendMsg signal.msg .pamTextInfo])
      else if signal.authType = ud.curType then
        createTokenThread env ud
          (if ud.term ∧ isInputType signal.authType then withColon signal.msg else signal.msg)
      else (ud, -1, [])
  | .expect | .started | .ended | .other _ => (ud, -1, [])

/-! ## All factors at once -/

/-- Source: `sfa.c`, `sfa_start_verify`. -/
def sfaStartVerify (env : SignalEnv) (ud : UserData) (timeout : ℤ) : UserData × ℤ × List PamCall :=
  ({ ud with curType := -1 }, if env.startOk then pamSuccess else pamAbort,
    [.start (-1) timeout])

/-- The type that the message is about: the password if it is among those that failed.
Source: `sfa.c`, `failType` in `sfa_signal_deal`. -/
def failType (ud : UserData) : ℤ :=
  if atPassword ∈ ud.failedIndexs then atPassword else ud.failedIndexs.headD atPassword

/-- Everything has failed. Source: `sfa.c`, the second part of the branch `ASC_Failure`. -/
def sfaFailure (env : SignalEnv) (ud : UserData) : Option (UserData × ℤ × List PamCall) :=
  let ud := { ud with needCancel := false, limits := env.limits }
  (typeToIndex (BitVec.ofInt 32 (failType ud))).map fun typeIndex =>
    if typeIndex ≥ supportAtType then (ud, pamAuthErr, [])
    else (ud, pamAuthErr,
      [.sendMsg (failureMsg env ud (failType ud) (ud.limits typeIndex)) .pamErrorMsg])

/-- The data, what is returned, and what is done. Source: `sfa.c`, `sfa_signal_deal`. -/
def sfaSignalDeal (env : SignalEnv) (ud : UserData) (signal : StatusSignal) :
    Option (UserData × ℤ × List PamCall) :=
  match signal.code with
  | .success =>
      if signal.authType = -1 then
        some ({ ud with needCancel := false }, pamSuccess,
          [.sendMsg "Verification successful" .pamTextInfo])
      else some (ud, -1, [])
  | .failure =>
      if signal.authType ≠ -1 then
        if ud.failedIndexs.length < supportAtType then
          some ({ ud with failedIndexs := ud.failedIndexs ++ [signal.authType] }, -1, [])
        else none
      else sfaFailure env ud
  | .cancel | .timeout | .error => some ({ ud with needCancel := false }, -1, [])
  | .verify => some (ud, -1, verifyCalls env signal.msg)
  | .prompt =>
      if signal.authType = -1 then
        some (createTokenThread env ud (if ud.term then signal.msg ++ ":" else signal.msg))
      else some (ud, -1, [])
  | .expect | .started | .ended | .other _ => some (ud, -1, [])

/-! ## The callback -/

/-- The handler of the mode. -/
def signalDeal (env : SignalEnv) (ud : UserData) (signal : StatusSignal) :
    Option (UserData × ℤ × List PamCall) :=
  if ud.authCtrl.isMFA then some (mfaSignalDeal env ud signal) else sfaSignalDeal env ud signal

/-- A signal that cannot be read changes nothing. Source: `pam.c`, `bus_signal_cb`, up to
`PAM_AUTHTOK`. -/
def busSignalCb (ud : UserData) (a : StatusSignal × SignalEnv) :
    Option (UserData × List PamCall) :=
  if a.2.readable then
    (signalDeal a.2 ud a.1).map fun r => ({ r.1 with res := r.2.1 }, r.2.2)
  else some (ud, [])

end LingmoAuthenticate.PamModule
