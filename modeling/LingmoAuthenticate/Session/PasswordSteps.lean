import LingmoAuthenticate.Lib.Rendezvous
import LingmoAuthenticate.Session.Transactions

/-!
# A password, step by step

A password transaction with its PAM sessions, its starts, the goroutines that run the conversations
with PAM, the calls of `SetToken` and those of `end`, each taken apart into the steps between which
the others may run. A start puts a new session in place before that has a channel, and reads the
field again for each call on it, so that a second start, or the `end` of an older timer, can come in
between. A PAM session, the channel that a start makes, and the goroutine of a start are known by
the number of that start.

* `PasswordSteps.Safe`: the daemon has not panicked, and nobody waits to send on a closed channel.
* `PasswordSteps.SafeStep.delivers`, `PasswordSteps.Inv.step`: a step keeps this exactly where it
  neither closes a channel that is not there or that somebody waits on, nor sends on a closed one,
  nor uses a session whose start has not come that far.
-/

namespace LingmoAuthenticate.Session

open Lib AuthCommon

/-- A PAM session: the id that `start` has given it, whether `start` has set whom it reports to, its
channel, whether PAM has started for it, whether it has been ended, and its mutex for tokens.
Source: `password_tx.go`, `pamSession`. -/
structure PamSessionSteps where
  id : ℕ
  result : Bool
  ch : Option ℕ
  core : Bool
  ended : Bool
  tokenMux : Bool
  deriving DecidableEq, Repr

/-- Nothing is set before `start`. Source: `password_tx.go`, `newPamSession`. -/
def newPamSession : PamSessionSteps := ⟨0, false, none, false, false, false⟩

/-- Where a start stands: it has counted up the session ids, put its new session in place, called
`start` of the session that it found then with the id that was the last then, set the fields of that
session, come back from PAM, or called `authenticate` of the session that it found then, before its
test of the session id and past it. -/
inductive PasswordStartPhase where
  | idle
  | counted
  | published
  | entered (o id : ℕ)
  | made (o : ℕ)
  | started
  | testing (o : ℕ)
  | giving (o : ℕ)
  | returned
  deriving DecidableEq, Repr

/-- What a goroutine of `doAuth` does after a status: go on with the conversation, wait for a token,
or return. -/
inductive PamNext where
  | conversing
  | waiting
  | returned
  deriving DecidableEq, Repr

/-- Where a goroutine of `doAuth` stands: before the conversation, in it, about to test whether its
session is the present one, past that test and about to give its status, about to read the channel
of its session, or waiting for a token at the channel that it has read. -/
inductive PamPhase where
  | idle
  | spawned
  | conversing
  | testing (s : VerifyStatus) (next : PamNext)
  | giving (s : VerifyStatus) (next : PamNext)
  | reading
  | waiting (c : ℕ)
  | returned
  deriving DecidableEq, Repr

/-- Source: `password_tx.go`, `pamSession.doAuth` and `pamSession.RespondPAM`. -/
def PamNext.toPhase : PamNext → PamPhase
  | .conversing => .conversing
  | .waiting => .reading
  | .returned => .returned

/-- Where a call of `SetToken` stands: before its test of the device state, past that test, at the
mutex of the session that it has taken, with that mutex in the channel, or with that mutex at a
channel that was not there, where it stays for ever. -/
inductive TokenPhase where
  | idle
  | called
  | tested
  | target (o : ℕ)
  | sending (o : ℕ)
  | stuck
  | returned
  deriving DecidableEq, Repr

/-- Where a call of `end` stands: at the session that it has found, or past the closing of that
session, if it has found one, before its status, before it resets the session id, and after it. -/
inductive PasswordEndPhase where
  | idle
  | target (o : ℕ)
  | closed (o : Option ℕ)
  | given (o : Option ℕ)
  | returned (o : Option ℕ)
  deriving DecidableEq, Repr

/-- A password transaction. `session` is the PAM session that is in place, `checked` are the starts
that have found the factor idle and unlocked and have not counted up the ids yet, `targets` are the
sessions of the goroutines, and `panicked` tells of a panic, which ends the daemon.
Source: `password_tx.go`, `PasswordTx` and `pamSession`. -/
structure PasswordSteps extends BaseTx where
  session : Option ℕ
  sessionId : ℤ
  nextSessionId : ℕ
  checked : ℕ
  starts : ℕ → PasswordStartPhase
  sessions : ℕ → PamSessionSteps
  chans : Rendezvous
  pams : ℕ → PamPhase
  targets : ℕ → ℕ
  tokens : ℕ → TokenPhase
  ends : ℕ → PasswordEndPhase
  panicked : Bool

/-- The steps of the starts, of the goroutines with what PAM answers, of the calls of `SetToken` and
of those of `end`; a goroutine is known by its start, and the calls by numbers. -/
inductive PasswordStep where
  | check
  | authenticate
  | newPamSession (k : ℕ)
  | callStart (k : ℕ)
  | start (k : ℕ)
  | pamStart (k : ℕ) (ok : Bool)
  | callAuthenticate (k : ℕ)
  | testStarted (k : ℕ)
  | giveStarted (k : ℕ)
  | doAuth (n : ℕ)
  | prompt (n : ℕ)
  | textInfo (n : ℕ) (msg : String)
  | judge (n : ℕ) (ok : Bool)
  | testId (n : ℕ)
  | give (n : ℕ)
  | readChan (n : ℕ)
  | receive (n i : ℕ)
  | receiveClosed (n : ℕ)
  | setToken (i : ℕ)
  | testDevState (i : ℕ)
  | takeSession (i : ℕ)
  | send (i : ℕ)
  | endTx (j : ℕ)
  | endSession (j : ℕ)
  | endGive (j : ℕ)
  | endReset (j : ℕ)
  | setLockState (s : LockState)
  deriving DecidableEq, Repr

namespace PasswordSteps

/-- Source: `password_tx.go`, `newPasswordTx`. -/
def new (type0 : AuthType) (lockState : LockState) : PasswordSteps :=
  ⟨.init type0 lockState, none, 0, 0, 0, fun _ => .idle, fun _ => newPamSession, .make,
    fun _ => .idle, fun _ => 0, fun _ => .idle, fun _ => .idle, false⟩

/-- A start goes on. -/
def setStart (s : PasswordSteps) (k : ℕ) (p : PasswordStartPhase) : PasswordSteps :=
  { s with starts := Function.update s.starts k p }

/-- A PAM session changes. -/
def setSession (s : PasswordSteps) (o : ℕ) (p : PamSessionSteps) : PasswordSteps :=
  { s with sessions := Function.update s.sessions o p }

/-- A goroutine goes on. -/
def setPam (s : PasswordSteps) (n : ℕ) (p : PamPhase) : PasswordSteps :=
  { s with pams := Function.update s.pams n p }

/-- A call of `SetToken` goes on. -/
def setToken (s : PasswordSteps) (i : ℕ) (p : TokenPhase) : PasswordSteps :=
  { s with tokens := Function.update s.tokens i p }

/-- A call of `end` goes on. -/
def setEnd (s : PasswordSteps) (j : ℕ) (p : PasswordEndPhase) : PasswordSteps :=
  { s with ends := Function.update s.ends j p }

/-- Source: `tx.go`, `baseTx.giveStatus`. -/
def giveStatus (s : PasswordSteps) (n : ℕ) (v : VerifyStatus) : PasswordSteps :=
  { s with toBaseTx := s.toBaseTx.giveStatus n v }

/-- The daemon panics. -/
def panic (s : PasswordSteps) : PasswordSteps := { s with panicked := true }

/-- The session of a goroutine. -/
def sessionOf (s : PasswordSteps) (n : ℕ) : PamSessionSteps := s.sessions (s.targets n)

/-- The controller finds the factor idle and unlocked. Source: `normal_verify.go` and
`multifactor_verify.go`, the loop of `authenticate`, before the call of the transaction. -/
def check (s : PasswordSteps) : Option PasswordSteps :=
  if s.canStart then some { s with checked := s.checked + 1 } else none

/-- Under `nextSessionIdMux`. Source: `password_tx.go`, `PasswordTx.authenticate`, its beginning. -/
def authenticate (s : PasswordSteps) : Option PasswordSteps :=
  if 0 < s.checked then
    let k := s.nextSessionId + 1
    let s := { s with
      checked := s.checked - 1, nextSessionId := k, sessionId := k, attempts := k }
    some (s.setStart k .counted)
  else none

/-- A new session is put in place, without a channel yet.
Source: `password_tx.go`, `PasswordTx.authenticate`. -/
def putSession (s : PasswordSteps) (k : ℕ) : Option PasswordSteps :=
  if s.starts k = .counted then
    some (({ s with session := some k }.setSession k newPamSession).setStart k .published)
  else none

/-- The session that is in place now is called, with the id that is the last now.
Source: `password_tx.go`, `PasswordTx.authenticate`, the call of `start`. -/
def callStart (s : PasswordSteps) (k : ℕ) : Option PasswordSteps :=
  if s.starts k = .published then
    some (match s.session with
      | some o => s.setStart k (.entered o s.nextSessionId)
      | none => s.panic)
  else none

/-- Source: `password_tx.go`, `pamSession.start`, before PAM. -/
def start (s : PasswordSteps) (k : ℕ) : Option PasswordSteps :=
  match s.starts k with
  | .entered o id =>
      let ps := { s.sessions o with id := id, result := true, ch := some k }
      some ((s.setSession o ps).setStart k (.made o))
  | _ => none

/-- Without PAM the call succeeds all the same, and no status is given.
Source: `password_tx.go`, `pamSession.start`, with the return of `PasswordTx.authenticate`. -/
def pamStart (s : PasswordSteps) (k : ℕ) (ok : Bool) : Option PasswordSteps :=
  match s.starts k with
  | .made o =>
      let s := s.setSession o { s.sessions o with core := ok }
      some (s.setStart k (if ok then .started else .returned))
  | _ => none

/-- The session that is in place now is called; one that has not been started has nobody to report
to. Source: `password_tx.go`, `PasswordTx.authenticate`, the call of `pamSession.authenticate`. -/
def callAuthenticate (s : PasswordSteps) (k : ℕ) : Option PasswordSteps :=
  if s.starts k = .started then
    some (match s.session with
      | some o => if (s.sessions o).result then s.setStart k (.testing o) else s.panic
      | none => s.panic)
  else none

/-- The goroutine of a start begins, with a session.
Source: `password_tx.go`, `pamSession.authenticate`. -/
def spawn (s : PasswordSteps) (k o : ℕ) : PasswordSteps :=
  ({ s with targets := Function.update s.targets k o }.setStart k .returned).setPam k .spawned

/-- The first half of `sendStatus`, of the status `Started`.
Source: `password_tx.go`, `PasswordTx.sendStatus` and `pamSession.authenticate`. -/
def testStarted (s : PasswordSteps) (k : ℕ) : Option PasswordSteps :=
  match s.starts k with
  | .testing o =>
      some (if ((s.sessions o).id : ℤ) = s.sessionId then s.setStart k (.giving o) else s.spawn k o)
  | _ => none

/-- Source: `password_tx.go`, `pamSession.authenticate`. -/
def giveStarted (s : PasswordSteps) (k : ℕ) : Option PasswordSteps :=
  match s.starts k with
  | .giving o => some ((s.giveStatus o defaultVerifyStatusStarted).spawn k o)
  | _ => none

/-- A goroutine uses what PAM has started, which is not there where PAM has not started.
Source: `password_tx.go`, `pamSession.doAuthAux`. -/
def doAuth (s : PasswordSteps) (n : ℕ) : Option PasswordSteps :=
  if s.pams n = .spawned then
    some (if (s.sessionOf n).core then s.setPam n .conversing else s.panic)
  else none

/-- The first half of `sendStatus`. Source: `password_tx.go`, `PasswordTx.sendStatus`. -/
def testId (s : PasswordSteps) (n : ℕ) : Option PasswordSteps :=
  match s.pams n with
  | .testing v next =>
      some (s.setPam n
        (if ((s.sessionOf n).id : ℤ) = s.sessionId then .giving v next else next.toPhase))
  | _ => none

/-- A token reaches the goroutine, and the call lets the mutex go.
Source: `password_tx.go`, `pamSession.RespondPAM`, with `pamSession.setToken`. -/
def receive (s : PasswordSteps) (n i : ℕ) : Option PasswordSteps :=
  match s.pams n, s.tokens i with
  | .waiting c, .sending o =>
      if s.chans.Offers i c then
        let s := { s with chans := s.chans.taken i }.setSession o
          { s.sessions o with tokenMux := false }
        some ((s.setToken i .returned).setPam n .conversing)
      else none
  | _, _ => none

/-- From a closed channel the goroutine has an empty token.
Source: `password_tx.go`, `pamSession.RespondPAM`. -/
def receiveClosed (s : PasswordSteps) (n : ℕ) : Option PasswordSteps :=
  match s.pams n with
  | .waiting c => if s.chans.closed c then some (s.setPam n .conversing) else none
  | _ => none

/-- A call takes the session that is there now; without one it panics.
Source: `password_tx.go`, `PasswordTx.setPassword`. -/
def takeSession (s : PasswordSteps) (i : ℕ) : Option PasswordSteps :=
  if s.tokens i = .tested then
    some (match s.session with
      | some o => s.setToken i (.target o)
      | none => s.panic)
  else none

/-- A call that has the mutex of its session begins to wait for the goroutine, for ever where the
session has no channel yet. Source: `password_tx.go`, `pamSession.setToken`. -/
def send (s : PasswordSteps) (i : ℕ) : Option PasswordSteps :=
  match s.tokens i with
  | .target o =>
      if (s.sessions o).tokenMux then none
      else
        let s₁ := s.setSession o { s.sessions o with tokenMux := true }
        match (s.sessions o).ch with
        | none => some (s₁.setToken i .stuck)
        | some c =>
            match s.chans.send i c with
            | .done chans => some ({ s₁ with chans := chans }.setToken i (.sending o))
            | .blocks => none
            | .panics => some s.panic
  | _ => none

/-- A call finds the session that is in place now. Source: `password_tx.go`, `PasswordTx.end`. -/
def endTx (s : PasswordSteps) (j : ℕ) : Option PasswordSteps :=
  if s.ends j = .idle then
    some (s.setEnd j (match s.session with
      | some o => .target o
      | none => .closed none))
  else none

/-- A session is closed once; closing the nil channel, or a closed one, panics.
Source: `password_tx.go`, `pamSession.end`. -/
def endSession (s : PasswordSteps) (j : ℕ) : Option PasswordSteps :=
  match s.ends j with
  | .target o =>
      some (if (s.sessions o).ended then s.setEnd j (.closed (some o))
      else match (s.sessions o).ch with
        | none => s.panic
        | some c =>
            match s.chans.close c with
            | .done chans =>
                let s := { s with chans := chans }.setSession o { s.sessions o with ended := true }
                s.setEnd j (.closed (some o))
            | .blocks | .panics => s.panic)
  | _ => none

/-- One step, as long as the daemon lives. A lock notification tells of the lock and notes it; the
call of `end` that it might make is one that may come at any time.
Source: `password_tx.go`, with the test of `Manager.SetToken` in `session/manager_ifc.go`. -/
def move (s : PasswordSteps) : PasswordStep → Option PasswordSteps
  | .check => s.check
  | .authenticate => s.authenticate
  | .newPamSession k => s.putSession k
  | .callStart k => s.callStart k
  | .start k => s.start k
  | .pamStart k ok => s.pamStart k ok
  | .callAuthenticate k => s.callAuthenticate k
  | .testStarted k => s.testStarted k
  | .giveStarted k => s.giveStarted k
  | .doAuth n => s.doAuth n
  | .prompt n =>
      if s.pams n = .conversing then
        some (s.setPam n (.testing (newVerifyStatus .prompt false "Password: ") .waiting))
      else none
  | .textInfo n msg =>
      if s.pams n = .conversing then
        some (s.setPam n (.testing (newVerifyStatus .prompt false msg) .conversing))
      else none
  | .judge n ok =>
      if s.pams n = .conversing then
        some (s.setPam n
          (.testing (newVerifyStatus (if ok then .success else .failure) true "") .returned))
      else none
  | .testId n => s.testId n
  | .give n =>
      match s.pams n with
      | .giving v next => some ((s.giveStatus (s.targets n) v).setPam n next.toPhase)
      | _ => none
  | .readChan n =>
      if s.pams n = .reading then (s.sessionOf n).ch.map fun c => s.setPam n (.waiting c) else none
  | .receive n i => s.receive n i
  | .receiveClosed n => s.receiveClosed n
  | .setToken i => if s.tokens i = .idle then some (s.setToken i .called) else none
  | .testDevState i =>
      if s.tokens i = .called then
        some (s.setToken i (if s.devState = .verifying then .tested else .returned))
      else none
  | .takeSession i => s.takeSession i
  | .send i => s.send i
  | .endTx j => s.endTx j
  | .endSession j => s.endSession j
  | .endGive j =>
      match s.ends j with
      | .closed o => some ((s.giveStatus (o.getD 0) defaultVerifyStatusEnd).setEnd j (.given o))
      | _ => none
  | .endReset j =>
      match s.ends j with
      | .given o => some ({ s with sessionId := -1 }.setEnd j (.returned o))
      | _ => none
  | .setLockState l => some { s with toBaseTx := s.notifyLock l }

/-- One step, observed through the statuses that it gives. -/
def step (s : PasswordSteps) (a : PasswordStep) : Option (PasswordSteps × List Given) :=
  if s.panicked then none
  else ({ s with sent := [] }.move a).map fun s => (s, s.sent)

/-! ## What a step comes to -/

/-- The ways in which a step goes, each with what it has found and the state that it leaves; some of
them are panics, on a session or a channel that is not there or has been closed. -/
inductive Next (s : PasswordSteps) : PasswordStep → PasswordSteps → Prop
  | check (hcan : s.canStart = true) : Next s .check { s with checked := s.checked + 1 }
  | authenticate (hpos : 0 < s.checked) :
      Next s .authenticate
        (setStart
          { s with
            checked := s.checked - 1, nextSessionId := s.nextSessionId + 1
            sessionId := (s.nextSessionId + 1 : ℕ), attempts := s.nextSessionId + 1 }
          (s.nextSessionId + 1) .counted)
  | newPamSession {k} (hk : s.starts k = .counted) :
      Next s (.newPamSession k)
        ((setSession { s with session := some k } k Session.newPamSession).setStart k .published)
  | callStart {k o} (hk : s.starts k = .published) (hsession : s.session = some o) :
      Next s (.callStart k) (s.setStart k (.entered o s.nextSessionId))
  | callNone {k} (hk : s.starts k = .published) (hsession : s.session = none) :
      Next s (.callStart k) s.panic
  | start {k o id} (hk : s.starts k = .entered o id) :
      Next s (.start k)
        ((s.setSession o { s.sessions o with id := id, result := true, ch := some k }).setStart k
          (.made o))
  | pamStart {k o ok} (hk : s.starts k = .made o) :
      Next s (.pamStart k ok)
        ((s.setSession o { s.sessions o with core := ok }).setStart k
          (if ok then .started else .returned))
  | callAuthenticate {k o} (hk : s.starts k = .started) (hsession : s.session = some o)
      (hresult : (s.sessions o).result = true) :
      Next s (.callAuthenticate k) (s.setStart k (.testing o))
  | authenticatePanics {k} (hk : s.starts k = .started)
      (hresult : ∀ o, s.session = some o → (s.sessions o).result = false) :
      Next s (.callAuthenticate k) s.panic
  | passStarted {k o} (hk : s.starts k = .testing o)
      (hid : ((s.sessions o).id : ℤ) = s.sessionId) :
      Next s (.testStarted k) (s.setStart k (.giving o))
  | dropStarted {k o} (hk : s.starts k = .testing o)
      (hid : ((s.sessions o).id : ℤ) ≠ s.sessionId) : Next s (.testStarted k) (s.spawn k o)
  | giveStarted {k o} (hk : s.starts k = .giving o) :
      Next s (.giveStarted k) ((s.giveStatus o defaultVerifyStatusStarted).spawn k o)
  | doAuth {n} (hn : s.pams n = .spawned) (hcore : (s.sessionOf n).core = true) :
      Next s (.doAuth n) (s.setPam n .conversing)
  | doAuthPanics {n} (hn : s.pams n = .spawned) (hcore : (s.sessionOf n).core = false) :
      Next s (.doAuth n) s.panic
  | prompt {n} (hn : s.pams n = .conversing) :
      Next s (.prompt n)
        (s.setPam n (.testing (newVerifyStatus .prompt false "Password: ") .waiting))
  | textInfo {n msg} (hn : s.pams n = .conversing) :
      Next s (.textInfo n msg)
        (s.setPam n (.testing (newVerifyStatus .prompt false msg) .conversing))
  | judge {n ok} (hn : s.pams n = .conversing) :
      Next s (.judge n ok)
        (s.setPam n
          (.testing (newVerifyStatus (if ok then .success else .failure) true "") .returned))
  | pass {n v next} (hn : s.pams n = .testing v next)
      (hid : ((s.sessionOf n).id : ℤ) = s.sessionId) :
      Next s (.testId n) (s.setPam n (.giving v next))
  | drop {n v next} (hn : s.pams n = .testing v next)
      (hid : ((s.sessionOf n).id : ℤ) ≠ s.sessionId) :
      Next s (.testId n) (s.setPam n next.toPhase)
  | give {n v next} (hn : s.pams n = .giving v next) :
      Next s (.give n) ((s.giveStatus (s.targets n) v).setPam n next.toPhase)
  | readChan {n c} (hn : s.pams n = .reading) (hch : (s.sessionOf n).ch = some c) :
      Next s (.readChan n) (s.setPam n (.waiting c))
  | receive {n i c o} (hn : s.pams n = .waiting c) (hi : s.tokens i = .sending o)
      (hoffer : s.chans.Offers i c) :
      Next s (.receive n i)
        (((setSession { s with chans := s.chans.taken i } o
          { s.sessions o with tokenMux := false }).setToken i .returned).setPam n .conversing)
  | receiveClosed {n c} (hn : s.pams n = .waiting c) (hclosed : s.chans.closed c = true) :
      Next s (.receiveClosed n) (s.setPam n .conversing)
  | setToken {i} (hi : s.tokens i = .idle) : Next s (.setToken i) (s.setToken i .called)
  | verifying {i} (hi : s.tokens i = .called) (hdev : s.devState = .verifying) :
      Next s (.testDevState i) (s.setToken i .tested)
  | notVerifying {i} (hi : s.tokens i = .called) (hdev : s.devState ≠ .verifying) :
      Next s (.testDevState i) (s.setToken i .returned)
  | takeSession {i o} (hi : s.tokens i = .tested) (hsession : s.session = some o) :
      Next s (.takeSession i) (s.setToken i (.target o))
  | noSession {i} (hi : s.tokens i = .tested) (hsession : s.session = none) :
      Next s (.takeSession i) s.panic
  | sendNone {i o} (hi : s.tokens i = .target o) (hmux : (s.sessions o).tokenMux = false)
      (hch : (s.sessions o).ch = none) :
      Next s (.send i)
        ((s.setSession o { s.sessions o with tokenMux := true }).setToken i .stuck)
  | send {i o c chans} (hi : s.tokens i = .target o) (hmux : (s.sessions o).tokenMux = false)
      (hch : (s.sessions o).ch = some c) (hsend : s.chans.send i c = .done chans) :
      Next s (.send i)
        ((setSession { s with chans := chans } o
          { s.sessions o with tokenMux := true }).setToken i (.sending o))
  | sendClosed {i o c} (hi : s.tokens i = .target o) (hmux : (s.sessions o).tokenMux = false)
      (hch : (s.sessions o).ch = some c) (hsend : s.chans.send i c = .panics) :
      Next s (.send i) s.panic
  | endTx {j o} (hj : s.ends j = .idle) (hsession : s.session = some o) :
      Next s (.endTx j) (s.setEnd j (.target o))
  | endNone {j} (hj : s.ends j = .idle) (hsession : s.session = none) :
      Next s (.endTx j) (s.setEnd j (.closed none))
  | wasEnded {j o} (hj : s.ends j = .target o) (hended : (s.sessions o).ended = true) :
      Next s (.endSession j) (s.setEnd j (.closed (some o)))
  | endSession {j o c chans} (hj : s.ends j = .target o) (hended : (s.sessions o).ended = false)
      (hch : (s.sessions o).ch = some c) (hclose : s.chans.close c = .done chans) :
      Next s (.endSession j)
        ((setSession { s with chans := chans } o
          { s.sessions o with ended := true }).setEnd j (.closed (some o)))
  | closePanics {j o} (hj : s.ends j = .target o) (hended : (s.sessions o).ended = false)
      (hclose : ∀ c, (s.sessions o).ch = some c → ∀ chans, s.chans.close c ≠ .done chans) :
      Next s (.endSession j) s.panic
  | endGive {j o} (hj : s.ends j = .closed o) :
      Next s (.endGive j)
        ((s.giveStatus (o.getD 0) defaultVerifyStatusEnd).setEnd j (.given o))
  | endReset {j o} (hj : s.ends j = .given o) :
      Next s (.endReset j) (setEnd { s with sessionId := -1 } j (.returned o))
  | setLockState {l} : Next s (.setLockState l) { s with toBaseTx := s.notifyLock l }

variable {s s' : PasswordSteps}

/-- A start takes its next step. -/
theorem next_of_start {a : PasswordStep} {k : ℕ}
    (ha : a = .newPamSession k ∨ a = .callStart k ∨ a = .start k ∨ (∃ ok, a = .pamStart k ok) ∨
      a = .callAuthenticate k ∨ a = .testStarted k ∨ a = .giveStarted k)
    (hs : s.move a = some s') : s.Next a s' := by
  rcases ha with rfl | rfl | rfl | ⟨ok, rfl⟩ | rfl | rfl | rfl
  · obtain ⟨hk, heq⟩ := Option.ite_none_right_eq_some.mp hs
    cases heq
    exact .newPamSession hk
  · obtain ⟨hk, heq⟩ := Option.ite_none_right_eq_some.mp hs
    cases heq
    rcases hsession : s.session with _ | o
    · exact .callNone hk hsession
    · exact .callStart hk hsession
  · simp only [move, start] at hs
    split at hs
    · next o id hk =>
        cases hs
        exact .start hk
    · cases hs
  · simp only [move, pamStart] at hs
    split at hs
    · next o hk =>
        cases hs
        exact .pamStart hk
    · cases hs
  · obtain ⟨hk, heq⟩ := Option.ite_none_right_eq_some.mp hs
    cases heq
    rcases hsession : s.session with _ | o
    · exact .authenticatePanics hk fun o ho => by cases hsession.symm.trans ho
    · rcases hresult : (s.sessions o).result with _ | _
      · simp only [hresult, Bool.false_eq_true, if_false]
        refine .authenticatePanics hk fun o' ho => ?_
        cases hsession.symm.trans ho
        exact hresult
      · simp only [hresult, if_true]
        exact .callAuthenticate hk hsession hresult
  · simp only [move, testStarted] at hs
    split at hs
    · next o hk =>
        split_ifs at hs with hid
        · cases hs
          exact .passStarted hk hid
        · cases hs
          exact .dropStarted hk hid
    · cases hs
  · simp only [move, giveStarted] at hs
    split at hs
    · next o hk =>
        cases hs
        exact .giveStarted hk
    · cases hs

/-- A call of `SetToken` comes to the channel of its session. -/
theorem next_of_send {i : ℕ} (hs : s.send i = some s') : s.Next (.send i) s' := by
  unfold PasswordSteps.send at hs
  split at hs
  · next o hi =>
      split_ifs at hs with hmux
      have hmux : (s.sessions o).tokenMux = false := by simpa using hmux
      dsimp only at hs
      split at hs
      · next hch =>
          cases hs
          exact .sendNone hi hmux hch
      · next c hch =>
          split at hs
          · next chans hsend =>
              cases hs
              exact .send hi hmux hch hsend
          · cases hs
          · next hsend =>
              cases hs
              exact .sendClosed hi hmux hch hsend
  · cases hs

/-- A call of `end` closes its session, which was closed before, or has no channel, or one. -/
theorem next_of_endSession {j : ℕ} (hs : s.endSession j = some s') :
    s.Next (.endSession j) s' := by
  unfold PasswordSteps.endSession at hs
  split at hs
  · next o hj =>
      cases hs
      rcases hended : (s.sessions o).ended with _ | _
      · simp only [Bool.false_eq_true, if_false]
        split
        · next hch =>
            exact .closePanics hj hended fun c hc => by cases hch.symm.trans hc
        · next c hch =>
            split
            · next chans hclose => exact .endSession hj hended hch hclose
            · next hclose =>
                refine .closePanics hj hended fun c' hc' => ?_
                cases hch.symm.trans hc'
                rw [hclose]
                rintro chans ⟨⟩
            · next hclose =>
                refine .closePanics hj hended fun c' hc' => ?_
                cases hch.symm.trans hc'
                rw [hclose]
                rintro chans ⟨⟩
      · simp only [if_true]
        exact .wasEnded hj hended
  · cases hs

/-- **The inversion**: a step that is taken goes in one of these ways. -/
theorem next_of_move {a : PasswordStep} (hs : s.move a = some s') : s.Next a s' := by
  cases a with
  | check =>
      obtain ⟨hcan, heq⟩ := Option.ite_none_right_eq_some.mp hs
      cases heq
      exact .check hcan
  | authenticate =>
      obtain ⟨hpos, heq⟩ := Option.ite_none_right_eq_some.mp hs
      cases heq
      exact .authenticate hpos
  | newPamSession k | callStart k | start k | pamStart k ok | callAuthenticate k | testStarted k
    | giveStarted k => exact next_of_start (k := k) (by simp) hs
  | doAuth n =>
      obtain ⟨hn, heq⟩ := Option.ite_none_right_eq_some.mp hs
      cases heq
      rcases hcore : (s.sessionOf n).core with _ | _
      · exact .doAuthPanics hn hcore
      · exact .doAuth hn hcore
  | prompt n =>
      obtain ⟨hn, heq⟩ := Option.ite_none_right_eq_some.mp hs
      cases heq
      exact .prompt hn
  | textInfo n msg =>
      obtain ⟨hn, heq⟩ := Option.ite_none_right_eq_some.mp hs
      cases heq
      exact .textInfo hn
  | judge n ok =>
      obtain ⟨hn, heq⟩ := Option.ite_none_right_eq_some.mp hs
      cases heq
      exact .judge hn
  | testId n =>
      simp only [PasswordSteps.move, testId] at hs
      split at hs
      · next v next hn =>
          split_ifs at hs with hid
          · cases hs
            exact .pass hn hid
          · cases hs
            exact .drop hn hid
      · cases hs
  | give n =>
      simp only [PasswordSteps.move] at hs
      split at hs
      · next v next hn =>
          cases hs
          exact .give hn
      · cases hs
  | readChan n =>
      obtain ⟨hn, hs⟩ := Option.ite_none_right_eq_some.mp hs
      obtain ⟨c, hch, rfl⟩ := Option.map_eq_some_iff.mp hs
      exact .readChan hn hch
  | receive n i =>
      simp only [PasswordSteps.move, PasswordSteps.receive] at hs
      split at hs
      · next c o hn hi =>
          obtain ⟨hoffer, heq⟩ := Option.ite_none_right_eq_some.mp hs
          cases heq
          exact .receive hn hi hoffer
      · cases hs
  | receiveClosed n =>
      simp only [PasswordSteps.move, PasswordSteps.receiveClosed] at hs
      split at hs
      · next c hn =>
          obtain ⟨hclosed, heq⟩ := Option.ite_none_right_eq_some.mp hs
          cases heq
          exact .receiveClosed hn hclosed
      · cases hs
  | setToken i =>
      obtain ⟨hi, heq⟩ := Option.ite_none_right_eq_some.mp hs
      cases heq
      exact .setToken hi
  | testDevState i =>
      obtain ⟨hi, heq⟩ := Option.ite_none_right_eq_some.mp hs
      split_ifs at heq with hdev
      · cases heq
        exact .verifying hi hdev
      · cases heq
        exact .notVerifying hi hdev
  | takeSession i =>
      obtain ⟨hi, heq⟩ := Option.ite_none_right_eq_some.mp hs
      cases heq
      rcases hsession : s.session with _ | o
      · exact .noSession hi hsession
      · exact .takeSession hi hsession
  | send i => exact next_of_send hs
  | endTx j =>
      obtain ⟨hj, heq⟩ := Option.ite_none_right_eq_some.mp hs
      cases heq
      rcases hsession : s.session with _ | o
      · exact .endNone hj hsession
      · exact .endTx hj hsession
  | endSession j => exact next_of_endSession hs
  | endGive j =>
      simp only [PasswordSteps.move] at hs
      split at hs
      · next o hj =>
          cases hs
          exact .endGive hj
      · cases hs
  | endReset j =>
      simp only [PasswordSteps.move] at hs
      split at hs
      · next o hj =>
          cases hs
          exact .endReset hj
      · cases hs
  | setLockState l =>
      cases hs
      exact .setLockState

/-! ## What token delivery takes -/

/-- The daemon has not panicked, and nobody waits to send on a closed channel. -/
def Safe (s : PasswordSteps) : Prop := s.panicked = false ∧ s.chans.Sound

/-- The step is safe. -/
def SafeStep (s : PasswordSteps) (a : PasswordStep) : Prop :=
  ∀ s' sent, s.step a = some (s', sent) → s'.Safe

/-- No token goes to a session that has been closed; a session that is closed for the first time has
a channel, where no token waits; and no start calls `authenticate` of a session that has not been
started, nor does its goroutine begin before PAM has. -/
def Delivers (s : PasswordSteps) : PasswordStep → Prop
  | .callAuthenticate k => s.starts k = .started →
      ∀ o, s.session = some o → (s.sessions o).result = true
  | .doAuth n => s.pams n = .spawned → (s.sessionOf n).core = true
  | .send i => ∀ o c, s.tokens i = .target o → (s.sessions o).tokenMux = false →
      (s.sessions o).ch = some c → s.chans.closed c = false
  | .endSession j => ∀ o, s.ends j = .target o → (s.sessions o).ended = false →
      ∃ c, (s.sessions o).ch = some c ∧ s.chans.closed c = false ∧ ¬ s.chans.Awaited c
  | _ => True

/-- Before the first session is put in place no start has come that far, no goroutine runs, the
transaction does not verify, and no call of `SetToken` has found that it does. -/
structure Fresh (s : PasswordSteps) : Prop where
  starts : ∀ k, s.starts k = .idle ∨ s.starts k = .counted
  pams : ∀ n, s.pams n = .idle
  devState : s.devState ≠ .verifying
  tokens : ∀ i, s.tokens i ≠ .tested

/-- A transaction that is safe, and before its first start has nothing under way. -/
structure Inv (s : PasswordSteps) : Prop where
  safe : s.Safe
  fresh : s.session = none → s.Fresh

theorem inv_new (type0 : AuthType) (lockState : LockState) : (new type0 lockState).Inv where
  safe := ⟨rfl, Rendezvous.sound_make⟩
  fresh _ := ⟨fun _ => .inl rfl, fun _ => rfl, nofun, fun _ => nofun⟩

/-- A session that is in place stays so, or another one comes. -/
theorem session_ne_none {a : PasswordStep} (hs : s.Next a s') (h : s.session ≠ none) :
    s'.session ≠ none := by
  cases hs with
  | newPamSession => rintro ⟨⟩
  | _ => exact h

/-- What a step before the first session comes to. -/
theorem Fresh.next (h : s.Fresh) {a : PasswordStep} (hs : s.Next a s') (hnone : s'.session = none) :
    s'.Fresh := by
  -- no start, goroutine or call of `SetToken` has come to anything yet
  have hstart : ∀ {k p}, s.starts k = p → p ≠ .idle → p ≠ .counted → False := by
    intro k p hk hidle hcounted
    rcases h.starts k with h | h
    · exact hidle (hk.symm.trans h)
    · exact hcounted (hk.symm.trans h)
  have hpam : ∀ {n p}, s.pams n = p → p ≠ .idle → False := fun hn hne =>
    hne (hn.symm.trans (h.pams _))
  have htoken : ∀ {i p}, p ≠ TokenPhase.tested → ∀ j, Function.update s.tokens i p j ≠ .tested := by
    intro i p hp j hj
    by_cases hji : j = i
    · rw [hji, Function.update_self] at hj
      exact hp hj
    · rw [Function.update_of_ne hji] at hj
      exact h.tokens j hj
  cases hs with
  | check | endTx | endNone | wasEnded | endReset =>
      exact ⟨h.starts, h.pams, h.devState, h.tokens⟩
  | authenticate hpos =>
      refine ⟨fun k => ?_, h.pams, h.devState, h.tokens⟩
      show Function.update s.starts (s.nextSessionId + 1) .counted k = .idle ∨
        Function.update s.starts (s.nextSessionId + 1) .counted k = .counted
      by_cases hk : k = s.nextSessionId + 1
      · rw [hk, Function.update_self]
        exact .inr rfl
      · rw [Function.update_of_ne hk]
        exact h.starts k
  | newPamSession => cases hnone
  | callStart hk | callNone hk | start hk | pamStart hk | callAuthenticate hk
    | authenticatePanics hk | passStarted hk | dropStarted hk | giveStarted hk =>
      exact (hstart hk (by rintro ⟨⟩) (by rintro ⟨⟩)).elim
  | doAuth hn | doAuthPanics hn | prompt hn | textInfo hn | judge hn | pass hn | drop hn | give hn
    | readChan hn | receive hn | receiveClosed hn =>
      exact (hpam hn (by rintro ⟨⟩)).elim
  | setToken hi | notVerifying hi hdev =>
      exact ⟨h.starts, h.pams, h.devState, htoken (by rintro ⟨⟩)⟩
  | verifying hi hdev => exact absurd hdev h.devState
  | takeSession hi | noSession hi => exact absurd hi (h.tokens _)
  | sendNone | send => exact ⟨h.starts, h.pams, h.devState, htoken (by rintro ⟨⟩)⟩
  | sendClosed | closePanics | endSession => exact ⟨h.starts, h.pams, h.devState, h.tokens⟩
  | endGive => exact ⟨h.starts, h.pams, by rintro ⟨⟩, h.tokens⟩
  | @setLockState l =>
      exact ⟨h.starts, h.pams, fun hv => h.devState (s.notifyLock_devState l hv).1, h.tokens⟩

/-- **The step lemma**: a step that delivers is safe. -/
theorem Inv.move (h : s.Inv) {a : PasswordStep} (hd : s.Delivers a) (hs : s.move a = some s') :
    s'.Inv := by
  have hnext := next_of_move hs
  refine ⟨?_, fun hnone => ?_⟩
  · cases hnext with
    | callNone hk hsession =>
        rcases (h.fresh hsession).starts _ with hidle | hcounted
        · cases hk.symm.trans hidle
        · cases hk.symm.trans hcounted
    | authenticatePanics hk hresult =>
        rcases hsession : s.session with _ | o
        · rcases (h.fresh hsession).starts _ with hidle | hcounted
          · cases hk.symm.trans hidle
          · cases hk.symm.trans hcounted
        · cases (hd hk o hsession).symm.trans (hresult o hsession)
    | doAuthPanics hn hcore => cases (hd hn).symm.trans hcore
    | noSession hi hsession => exact absurd hi ((h.fresh hsession).tokens _)
    | receive hn hi hoffer => exact ⟨h.safe.1, Rendezvous.sound_taken h.safe.2⟩
    | send hi hmux hch hsend => exact ⟨h.safe.1, Rendezvous.sound_send h.safe.2 hsend⟩
    | sendClosed hi hmux hch hsend =>
        rw [Rendezvous.send_of_open (hd _ _ hi hmux hch)] at hsend
        cases hsend
    | @endSession j o c chans hj hended hch hclose =>
        obtain ⟨c', hc', hopen, hfree⟩ := hd o hj hended
        cases hch.symm.trans hc'
        rw [Rendezvous.close_of_open hopen] at hclose
        cases hclose
        exact ⟨h.safe.1, (Rendezvous.sound_close_iff h.safe.2).mpr hfree⟩
    | @closePanics j o hj hended hclose =>
        obtain ⟨c, hch, hopen, -⟩ := hd o hj hended
        exact absurd (Rendezvous.close_of_open hopen) (hclose c hch _)
    | _ => exact h.safe
  · by_cases hsession : s.session = none
    · exact (h.fresh hsession).next hnext hnone
    · exact absurd hnone (session_ne_none hnext hsession)

/-- Statuses that were given before do not matter. -/
theorem Inv.clearSent (h : s.Inv) : Inv { s with sent := [] } := by
  refine ⟨h.safe, fun hnone => ?_⟩
  have hfresh := h.fresh hnone
  exact ⟨hfresh.starts, hfresh.pams, hfresh.devState, hfresh.tokens⟩

theorem Inv.step (h : s.Inv) {a : PasswordStep} {sent : List Given} (hd : s.Delivers a)
    (hs : s.step a = some (s', sent)) : s'.Inv := by
  unfold PasswordSteps.step at hs
  rw [if_neg (by simp [h.safe.1])] at hs
  obtain ⟨ht, rfl⟩ := observed_eq_some.mp hs
  refine h.clearSent.move ?_ ht
  cases a <;> exact hd

/-- A step that is safe delivers. -/
theorem SafeStep.delivers (hsafe : s.Safe) {a : PasswordStep} (h : s.SafeStep a) :
    s.Delivers a := by
  have hstep : ∀ t, move { s with sent := [] } a = some t → t.Safe := by
    intro t ht
    refine h t t.sent ?_
    rw [PasswordSteps.step, if_neg (by simp [hsafe.1]), ht]
    rfl
  -- a step that panics is not safe
  have hpanic : move { s with sent := [] } a ≠ some (panic { s with sent := [] }) :=
    fun ht => absurd (hstep _ ht).1 nofun
  cases a with
  | callAuthenticate k =>
      intro hk o hsession
      by_contra hresult
      refine hpanic ?_
      simp only [PasswordSteps.move, callAuthenticate, if_pos hk, hsession, if_neg hresult]
  | doAuth n =>
      intro hn
      by_contra hcore
      refine hpanic ?_
      have hcore : ¬ (sessionOf { s with sent := [] } n).core = true := hcore
      simp only [PasswordSteps.move, doAuth, if_pos hn, if_neg hcore]
  | send i =>
      intro o c hi hmux hch
      by_contra hclosed
      refine hpanic ?_
      have hsend : s.chans.send i c = .panics := Rendezvous.send_of_closed (by simpa using hclosed)
      simp only [PasswordSteps.move, send, hi, hmux, Bool.false_eq_true, if_false, hch, hsend]
  | endSession j =>
      intro o hj hended
      rcases hch : (s.sessions o).ch with _ | c
      · refine absurd ?_ hpanic
        simp only [PasswordSteps.move, endSession, hj, hended, Bool.false_eq_true, if_false, hch]
      · refine ⟨c, rfl, ?_⟩
        rcases hopen : s.chans.closed c with _ | _
        · have hend : move { s with sent := [] } (.endSession j) =
              some ((setSession { s with
                sent := [], chans.closed := Function.update s.chans.closed c true } o
                { s.sessions o with ended := true }).setEnd j (.closed (some o))) := by
            simp only [PasswordSteps.move, endSession, hj, hended, Bool.false_eq_true, if_false, hch,
              Rendezvous.close_of_open hopen]
          exact ⟨rfl, (Rendezvous.sound_close_iff hsafe.2).mp (hstep _ hend).2⟩
        · have hclose := Rendezvous.close_of_closed hopen
          refine absurd ?_ hpanic
          simp only [PasswordSteps.move, endSession, hj, hended, Bool.false_eq_true, if_false, hch,
            hclose]
  | _ => trivial

/-- **When tokens are delivered.** In every run of a password transaction no token is sent on a
closed channel, none waits there, and nothing else panics, exactly when no call of `SetToken` comes
to a session that has been closed, a call of `end` that closes one finds its channel there and no
token waiting, and each start, and its goroutine, finds a session that has been started. -/
theorem safe_iff (type0 : AuthType) (lockState : LockState) (acts : List PasswordStep) :
    Along step SafeStep (new type0 lockState) acts ↔
      Along step Delivers (new type0 lockState) acts := by
  constructor
  · exact Along.of_invariant (I := Inv)
      (fun _ _ _ _ hinv hsafe hs => hinv.step (hsafe.delivers hinv.safe) hs)
      (fun _ _ hinv hsafe => hsafe.delivers hinv.safe) (inv_new type0 lockState)
  · exact Along.of_invariant (I := Inv) (fun _ _ _ _ hinv hd hs => hinv.step hd hs)
      (fun _ _ hinv hd _ _ hs => (hinv.step hd hs).safe) (inv_new type0 lockState)

end PasswordSteps

end LingmoAuthenticate.Session
