import LingmoAuthenticate.Limits.Allowed
import LingmoAuthenticate.Session.Session
import LingmoAuthenticate.Session.Success

/-!
# The service: the sessions of a user over one table of limits

Any number of sessions of one limit type and user, each with its own copies of the locks, over the
limits that they all ask and update. Between any two steps of a session every other one may take
its own:

* a start asks the limit of each of its factors and then notes the answer, with no lock held between
  the two, and then starts those that are idle and unlocked, one by one;
* the controller takes one status out of its channel, and makes the calls of that round one by one;
* the handler of `LimitUpdated` asks and notes in the same way; the signal also comes for the other
  limit type of the user, so that it can come at any time.

Several starts and handlers can be under way in one session, so that an answer may be noted when it
does not hold any more, or after a later one.

A session that is opened later is one that does nothing before; the locks that it opens with are
those it is given here.
-/

namespace LingmoAuthenticate.Authenticate

open Lib AuthCommon Limits Session

/-- Source: `manager.go`, `Manager.UpdateLimit`. -/
def updateLimit (m : LimitTable) (k : UserKey) (now : ℤ) (u : LimitUpdate) : Option LimitTable :=
  match u.updateType with
  | .success => some ((m.success k u.type0).getD m)
  | .fail => some ((m.fail k u.type0 now).getD m)
  | .resetAll => m.resetLimits k

/-- What the limits have answered about a factor, and whether it was a `Start` that asked, which
then goes on to start the factor, or a handler of `LimitUpdated`. -/
structure LimitAnswer where
  type0 : AuthType
  allowed : Bool
  starts : Bool
  deriving DecidableEq, Repr

/-- Source: `session/manager_ifc.go`, `Manager.Start`, and `session/manager.go`,
`Manager.listenSignalUpdateLimited`, the argument of `setLockState`. -/
def LimitAnswer.lockState (r : LimitAnswer) : LockState := if r.allowed then .unlock else .locked

/-- A session in the service: the answers of the limits that its starts and handlers have got and
not yet noted; for each factor, how many starts have noted an answer and not yet come to start it;
and the calls that the present round of the controller has still to make, each with what it
received. -/
structure ServedSession where
  state : SessionState
  answers : List LimitAnswer
  starting : AuthType → ℕ
  calls : List (VirtualTx × ProxyCall)

/-- The service: the sessions of a user by their numbers, the limits of all users, and the clock
that the limits are asked by. Source: `manager.go`, `Manager`. -/
structure Service where
  sessions : ℕ → ServedSession
  limits : LimitTable
  now : ℤ

/-- What happens in the service; where `setLockState` would wait for a goroutine, the action says
how that returns. -/
inductive ServiceAction where
  | askLimit (i : ℕ) (t : AuthType) (starts : Bool)
  | noteLimit (i n : ℕ) (finger : DoVerify) (camera : CameraLeave)
  | authenticate (i : ℕ) (t : AuthType) (a : TxAction)
  | tx (i : ℕ) (t : AuthType) (a : TxAction)
  | endAll (i : ℕ) (finalResultGiven : Bool)
  | receive (i : ℕ) (o : LoopOrders)
  | call (i : ℕ)
  | ask (t : AuthType)
  | tick (now : ℤ)

/-- The action neither makes a call of a controller nor moves the clock. -/
def ServiceAction.isLocal : ServiceAction → Bool
  | .call _ | .tick _ => false
  | _ => true

namespace Service

/-- Sessions that have just been opened. -/
def start (available : ℕ → AuthType → Bool) (locks : ℕ → AuthType → LockState)
    (c : ℕ → Controller) (limits : LimitTable) (now : ℤ) : Service :=
  ⟨fun i => ⟨.start (available i) (locks i) (c i), [], fun _ => 0, []⟩, limits, now⟩

/-- The service with another state of one session. -/
def setSession (s : Service) (i : ℕ) (p : ServedSession) : Service :=
  { s with sessions := Function.update s.sessions i p }

/-- A start or a handler of a session asks the limit of one of its factors.
Source: `session/manager_ifc.go`, the loop of `Manager.Start`, and `session/manager.go`, that of
`Manager.listenSignalUpdateLimited`, the calls of `IsLimitAllowed`. -/
def askLimit (k : UserKey) (s : Service) (i : ℕ) (t : AuthType) (starts : Bool) :
    Option Service :=
  let p := s.sessions i
  (p.state.txs t).bind fun _ => (s.limits.allowTx k t s.now).map fun r =>
    { s with limits := r.2 }.setSession i { p with answers := ⟨t, r.1, starts⟩ :: p.answers }

/-- One of them notes its answer, whatever has happened since; a start then comes to the factor.
Source: as for `askLimit`, the calls of `setLockState`. -/
def noteLimit (translate : String → String) (s : Service) (i n : ℕ) (finger : DoVerify)
    (camera : CameraLeave) : Option Service :=
  let p := s.sessions i
  p.answers[n]?.bind fun r => (p.state.txs r.type0).bind fun tx =>
    (p.state.step translate (.tx r.type0 (.setLockState tx.kind r.lockState finger camera))).map
      fun q => s.setSession i { p with
        state := q.1
        answers := p.answers.eraseIdx n
        starting := if r.starts then
            Function.update p.starting r.type0 (p.starting r.type0 + 1)
          else p.starting }

/-- Start a factor whose answer was noted; one that is busy or locked is passed over.
Source: `session/normal_verify.go` and `session/multifactor_verify.go`, the loop of
`authenticate`. -/
def authenticate (translate : String → String) (s : Service) (i : ℕ) (t : AuthType)
    (a : TxAction) : Option Service :=
  let p := s.sessions i
  let p' := { p with starting := Function.update p.starting t (p.starting t - 1) }
  if 0 < p.starting t ∧ a.isStart = true then
    (p.state.txs t).bind fun tx =>
      if tx.base.canStart then
        (p.state.step translate (.tx t a)).map fun q => s.setSession i { p' with state := q.1 }
      else some (s.setSession i p')
  else none

/-- One round of the controller, up to its calls, once those of the round before are made.
Source: `session/normal_verify.go` and `session/multifactor_verify.go`, `listenResultCh`. -/
def receive (translate : String → String) (s : Service) (i : ℕ) (o : LoopOrders) :
    Option Service :=
  let p := s.sessions i
  match p.calls, p.state.resultCh with
  | [], q :: _ => (p.state.step translate (.receive o)).map fun r =>
      s.setSession i { p with state := r.1, calls := r.2.map fun c => (q.tx, c.2) }
  | _, _ => none

/-- What a call of a controller does to the limits.
Source: `session/manager.go`, `Manager.updateLimits`. -/
def perform (k : UserKey) (s : Service) : ProxyCall → Option LimitTable
  | .emitStatus _ _ _ => some s.limits
  | .updateLimits status flag =>
      match updateLimits status flag with
      | none => some s.limits
      | some u => updateLimit s.limits k s.now u

/-- One action, observed through the call that a controller makes. A whole session is ended with a
status for which its controller makes no call. -/
def step (translate : String → String) (k : UserKey) (s : Service) :
    ServiceAction → Option (Service × Option ProxyCall)
  | .askLimit i t starts => (s.askLimit k i t starts).map fun s => (s, none)
  | .noteLimit i n finger camera =>
      (s.noteLimit translate i n finger camera).map fun s => (s, none)
  | .authenticate i t a => (s.authenticate translate i t a).map fun s => (s, none)
  | .tx i t a =>
      if a.isStart || a.isLock then none
      else ((s.sessions i).state.step translate (.tx t a)).map fun q =>
        (s.setSession i { s.sessions i with state := q.1 }, none)
  | .endAll i finalResultGiven =>
      let status := if finalResultGiven then .ended else .cancel
      ((s.sessions i).state.step translate (.endAll status)).map fun q =>
        (s.setSession i { s.sessions i with state := q.1 }, none)
  | .receive i o => (s.receive translate i o).map fun s => (s, none)
  | .call i =>
      match (s.sessions i).calls with
      | [] => none
      | c :: rest => (s.perform k c.2).map fun m =>
          ({ s with limits := m }.setSession i { s.sessions i with calls := rest }, some c.2)
  | .ask t => (s.limits.allowTx k t s.now).map fun r => ({ s with limits := r.2 }, none)
  | .tick now => some ({ s with now := now }, none)

/-- The limit of a factor allows a try. -/
def isAllowed (k : UserKey) (s : Service) (t : AuthType) : Bool := s.limits.isAllowed k t s.now

end Service

end LingmoAuthenticate.Authenticate
