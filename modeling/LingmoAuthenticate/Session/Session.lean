import LingmoAuthenticate.Session.MultiFactorVerify
import LingmoAuthenticate.Session.NormalVerify
import LingmoAuthenticate.Session.Transactions

/-!
# A session: its transactions, its channel and its controller

The transactions give their statuses into the channel of the controller, whose loop takes them out
one by one and calls back to the session. An action of a session is one action of a transaction, one
round of the loop, or the end of the whole session; calls on several transactions, such as a start,
are their actions one after the other.

* `Controller.receive_calls`: which calls a round makes, for both controllers.
-/

namespace LingmoAuthenticate.Session

open Lib AuthCommon

/-! ## Controllers -/

/-- Source: `verify.go`, `Controller`. -/
inductive Controller where
  | normal (g : NormalVerify)
  | multi (m : MultiFactorVerify)

/-- The orders of the loops over maps that one round runs: over the last codes and the awaited
inputs of a single-factor controller, and over the results and the texts of one for several
factors. -/
structure LoopOrders where
  codes : CodeOrder
  inputs : InputOrder
  results : ResultOrder
  msgs : ResultOrder

/-- The loops visit the entries as they are listed. -/
def LoopOrders.listed : LoopOrders := ⟨.listed _ _, .listed _ _, .listed _ _, .listed _ _⟩

namespace Controller

/-- Source: `normal_verify.go` and `multifactor_verify.go`, `listenResultCh`, one round. -/
def receive (translate : String → String) (c : Controller) (tx : VirtualTx) (o : LoopOrders) :
    Option (Controller × List ProxyCall) :=
  match c with
  | .normal g =>
      let r := g.receive translate (some tx) o.codes o.inputs
      some (.normal r.1, r.2)
  | .multi m =>
      (m.receive translate (some tx) o.results o.msgs).map fun r => (.multi r.1, r.2)

/-- What ending a whole session tells it.
Source: `normal_verify.go` and `multifactor_verify.go`, `end`, with the flag of all types. -/
def endCalls (s : StatusCode) : Controller → List ProxyCall
  | .normal _ => []
  | .multi _ => if s = .success then [.updateLimits s allAuthenticationFlag] else []

/-- Without a status nothing happens. -/
theorem receive_none (translate : String → String) (c : Controller) (kind : TxKind) (t : AuthType)
    (o : LoopOrders) : c.receive translate ⟨kind, t, none⟩ o = some (c, []) := by
  cases c <;> rfl

/-- A round emits the status; where it counts, it has the limits updated, and may come to a
verdict. -/
theorem receive_calls {translate : String → String} {c c' : Controller} {kind : TxKind}
    {t : AuthType} {status : VerifyStatus} {o : LoopOrders} {calls : List ProxyCall}
    (h : c.receive translate ⟨kind, t, some status⟩ o = some (c', calls)) :
    (kind.shouldIgnore status.s = true ∧
      calls = [.emitStatus (authTypeToFlag t) status.s (translate status.msg)]) ∨
    ∃ rest, (∀ call ∈ rest, ∀ s f, call = .updateLimits s f → f = allAuthenticationFlag) ∧
      calls = [.emitStatus (authTypeToFlag t) status.s (translate status.msg),
        .updateLimits status.s (authTypeToFlag t)] ++ rest := by
  have hverdict : ∀ {p : Prop} [Decidable p] {res : StatusCode} {msg : String},
      ∀ call ∈ (if p then [ProxyCall.emitStatus allAuthenticationFlag res msg,
        .updateLimits res allAuthenticationFlag] else []),
        ∀ s f, call = .updateLimits s f → f = allAuthenticationFlag := by
    intro p _ res msg call hcall s f hf
    split_ifs at hcall
    · subst hf
      simp only [List.mem_cons, ProxyCall.updateLimits.injEq, reduceCtorEq, List.not_mem_nil,
        or_false, false_or] at hcall
      exact hcall.2
    · cases hcall
  cases c with
  | normal g =>
      simp only [receive, NormalVerify.receive, Option.some.injEq, Prod.mk.injEq] at h
      obtain ⟨-, rfl⟩ := h
      rcases hign : kind.shouldIgnore status.s with _ | _
      · rw [if_neg (by simp)]
        exact .inr ⟨_, hverdict, rfl⟩
      · rw [if_pos rfl]
        exact .inl ⟨rfl, rfl⟩
  | multi m =>
      obtain ⟨r, hr, heq⟩ := Option.map_eq_some_iff.mp h
      cases heq
      unfold MultiFactorVerify.receive at hr
      dsimp only at hr
      rcases hign : kind.shouldIgnore status.s with _ | _
      · rw [hign, if_neg (by simp)] at hr
        obtain ⟨m', -, rfl⟩ := Option.map_eq_some_iff.mp hr
        exact .inr ⟨_, hverdict, rfl⟩
      · rw [hign, if_pos rfl, Option.some.injEq] at hr
        subst hr
        exact .inl ⟨rfl, rfl⟩

end Controller

/-! ## Sessions -/

/-- A status in the channel of the controller; `attempt` is the attempt it was given for, and not
part of the program. -/
structure Queued where
  tx : VirtualTx
  attempt : ℕ
  deriving DecidableEq, Repr

/-- A session: its transactions by their types, the channel, and the controller.
Source: `session/manager.go`, `Manager`, and `verify.go`, `baseController`. -/
structure SessionState where
  txs : AuthType → Option Tx
  resultCh : List Queued
  controller : Controller
  ended : Bool

/-- What happens to a session: a transaction makes a step, the controller takes a status out of the
channel, or the session is ended with a status. -/
inductive SessionAction where
  | tx (t : AuthType) (a : TxAction)
  | receive (o : LoopOrders)
  | endAll (s : StatusCode)

/-- The transaction that is added for a type. Source: `session/manager.go`, `Manager.addTxs`. -/
def newTx (t : AuthType) (lockState : LockState) : Option Tx :=
  match t with
  | .password | .activeDirectory => some (.new .password t lockState)
  | .fingerprint => some (.new .fingerprint t lockState)
  | .uKey => some (.new .uKey t lockState)
  | .face => some (.new .face t lockState)
  | .iris => some (.new .iris t lockState)
  | .custom => some (.new .custom t lockState)
  | .fingerVein | .other _ => none

namespace SessionState

/-- A new session has a transaction for each type that is available, locked as its limit says.
Source: `session/manager.go`, `Manager.addTxs` and `Manager.addTx`. -/
def start (available : AuthType → Bool) (locks : AuthType → LockState) (c : Controller) :
    SessionState :=
  ⟨fun t => if available t then newTx t (locks t) else none, [], c, false⟩

/-- A status reaches the channel unless the session has ended.
Source: `normal_verify.go` and `multifactor_verify.go`, `sendStatus`. -/
def sendStatus (s : SessionState) (t : AuthType) (kind : TxKind) (sent : List Given) :
    SessionState :=
  if s.ended then s
  else { s with
    resultCh := s.resultCh ++ sent.map fun g => ⟨⟨kind, t, some g.status⟩, g.attempt⟩ }

/-- One action, observed through the calls of the controller, each with the attempt of the status
that led to it. -/
def step (translate : String → String) (s : SessionState) :
    SessionAction → Option (SessionState × List (ℕ × ProxyCall))
  | .tx t a =>
      (s.txs t).bind fun tx => (tx.step a).map fun r =>
        ({ s with txs := Function.update s.txs t (some r.1) }.sendStatus t r.1.kind r.2, [])
  | .receive o =>
      match s.resultCh with
      | [] => none
      | q :: rest =>
          (s.controller.receive translate q.tx o).map fun r =>
            ({ s with controller := r.1, resultCh := rest }, r.2.map fun c => (q.attempt, c))
  | .endAll status =>
      if s.ended then some (s, [])
      else some ({ s with ended := true }, (s.controller.endCalls status).map fun c => (0, c))

/-- The ways in which an action of a session goes, with the calls that the controller makes for it,
each under the attempt that its status came from (zero where it came from none). -/
inductive Next (translate : String → String) (s : SessionState) :
    SessionAction → SessionState → List (ℕ × ProxyCall) → Prop
  | tx {t a tx tx' sent} (htx : s.txs t = some tx) (hstep : tx.step a = some (tx', sent)) :
      Next translate s (.tx t a)
        ({ s with txs := Function.update s.txs t (some tx') }.sendStatus t tx'.kind sent) []
  | receive {o q rest c' out} (hch : s.resultCh = q :: rest)
      (hrec : s.controller.receive translate q.tx o = some (c', out)) :
      Next translate s (.receive o) { s with controller := c', resultCh := rest }
        (out.map fun c => (q.attempt, c))
  | wasEnded {status} (hended : s.ended = true) : Next translate s (.endAll status) s []
  | ended {status} (hended : s.ended = false) :
      Next translate s (.endAll status) { s with ended := true }
        ((s.controller.endCalls status).map fun c => (0, c))

theorem next_of_step {translate : String → String} {s s' : SessionState} {a : SessionAction}
    {calls : List (ℕ × ProxyCall)} (hs : s.step translate a = some (s', calls)) :
    s.Next translate a s' calls := by
  cases a with
  | tx t a =>
      obtain ⟨tx, htx, hs⟩ := Option.bind_eq_some_iff.mp hs
      obtain ⟨⟨tx', sent⟩, hstep, heq⟩ := Option.map_eq_some_iff.mp hs
      cases heq
      exact .tx htx hstep
  | receive o =>
      rcases hch : s.resultCh with _ | ⟨q, rest⟩ <;> simp only [step, hch] at hs
      · cases hs
      · obtain ⟨⟨c', out⟩, hrec, heq⟩ := Option.map_eq_some_iff.mp hs
        cases heq
        exact .receive hch hrec
  | endAll status =>
      simp only [step] at hs
      split_ifs at hs with hended
      · cases hs
        exact .wasEnded hended
      · cases hs
        exact .ended (by simpa using hended)

/-- How many attempts of a factor were started. -/
def attempts (s : SessionState) (t : AuthType) : ℕ := (s.txs t).elim 0 fun tx => tx.base.attempts

end SessionState

end LingmoAuthenticate.Session
