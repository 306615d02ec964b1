import LingmoAuthenticate.Session.UKeyVerify

/-!
# A key, its signals and its calls of `SetPin`, step by step

The transaction and the manager of `UKeyVerify`, where in addition a signal handler may be held up
between its test of the id and the status that it gives, and a call of `SetToken` starts a goroutine
that calls `SetPin` and gives a status where that fails. An `end` may come in between. The service
knows ids only; which attempt a signal or a call belongs to is kept beside them.

* `UKeySteps.move` is one step.
* `UKeySteps.signal_alone`, `UKeySteps.pin_alone`: where nothing comes in between, the steps of a
  handler and those of a call of `SetToken` come to one step of `UKeyVerify`.
-/

namespace LingmoAuthenticate.Session

open Lib AuthCommon
open UKey (Manager VerifyError)

/-- A signal of the service about a verification. Source: `ukey/manager.go`, the signals
`VerifyResult` and `State` of `Manager`. -/
inductive UKeySignal where
  | verifyResult (ok : Bool)
  | state (s : UKeyState)
  deriving DecidableEq, Repr

/-- How far the goroutine of a call of `SetToken` is: it is about to read the id for `SetPin`, its
call with the id that it has read is on the way, or it is about to give a status. -/
inductive PinStage where
  | setPin
  | calling (id : String)
  | giveStatus (err : VerifyError)
  deriving DecidableEq, Repr

/-- The goroutine of a call of `SetToken`, with the attempt that was the last when the call came.
Source: `ukey_tx.go`, `UKeyTx.setPassword`. -/
structure UKeyPin where
  attempt : ℕ
  stage : PinStage
  deriving DecidableEq, Repr

/-- The actions of `UKeyVerify` that are taken apart here. -/
def UKeyVerifyAction.isRefined : UKeyVerifyAction → Bool
  | .setPassword _ | .verifyResult _ _ | .state _ _ => true
  | _ => false

/-- A key transaction and the manager. `heard` is the signal whose handler is past its test of the
id, with the attempt that the signal is about; handlers run one at a time. `verifying` is not part
of the program: the attempts whose verdict is still to come from the service, each with the id that
it was started with. -/
structure UKeySteps extends UKeyVerify where
  verifying : List (ℕ × String)
  heard : Option (ℕ × UKeySignal)
  pins : List UKeyPin

/-- What happens; a signal is one about the verification of an attempt, and `device` is the error of
the device that `SetPin` reaches, if any. -/
inductive UKeyStep where
  | act (a : UKeyVerifyAction)
  | signal (n : ℕ) (id : String) (sig : UKeySignal)
  | handle (n : ℕ) (sig : UKeySignal)
  | setToken
  | pin (p : UKeyPin) (device : Option String)

namespace UKeySteps

/-- A new transaction, beside a manager in any state. -/
def new (manager : Manager) (lockState : LockState) : UKeySteps :=
  ⟨.start manager lockState, [], none, []⟩

/-- The verification that the service begins in a step, with its attempt. -/
def begins (s : UKeySteps) : UKeyVerifyAction → Option (ℕ × String)
  | .goroutine ⟨n, .starting id⟩ device =>
      if s.manager.startVerify id device = none then some (n, id) else none
  | _ => none

/-- A verdict can still come: the service has the verification, and the handlers are connected, or
will be. -/
def awaits (w : UKeyVerify) (v : ℕ × String) : Bool :=
  decide (v.2 ∈ w.manager.verificationInfoMap) && (w.tx.handlers || !w.tx.listened)

/-- One step of `UKeyVerify`. -/
def act (s : UKeySteps) (a : UKeyVerifyAction) : Option UKeySteps :=
  if a.isRefined then none
  else (s.toUKeyVerify.move a).map fun r =>
    { s with
      toUKeyVerify := r.1
      verifying := ((s.begins a).toList ++ s.verifying).filter (awaits r.1) }

/-- The service signals, and a handler that is connected tests the id. With its verdict a
verification is over. Source: `ukey_tx.go`, `UKeyTx.listenSignal`, the beginning of its handlers. -/
def signal (s : UKeySteps) (n : ℕ) (id : String) (sig : UKeySignal) : Option UKeySteps :=
  if n ≤ s.tx.attempts ∧ (s.tx.handlers = true → s.heard = none) then
    some { s with
      verifying := match sig with
        | .verifyResult _ => s.verifying.filter (·.1 ≠ n)
        | .state _ => s.verifying
      heard := if s.tx.handlers = true ∧ id = s.tx.verificationId then some (n, sig) else s.heard }
  else none

/-- A handler goes on, past its test of the id. Source: `ukey_tx.go`, `UKeyTx.listenSignal`. -/
def handle (s : UKeySteps) (n : ℕ) (sig : UKeySignal) : Option UKeySteps :=
  if s.heard = some (n, sig) then
    some { s with
      heard := none
      tx := match sig with
        | .verifyResult ok => s.tx.verifyResult s.tx.verificationId ok
        | .state st => s.tx.state s.tx.verificationId st }
  else none

/-- A call of `SetToken` finds the transaction verifying, or returns. Source: `manager_ifc.go`,
`Manager.SetToken`, with `UKeyTx.setPassword` in `ukey_tx.go`. -/
def setToken (s : UKeySteps) : UKeySteps :=
  if s.tx.devState = .verifying then { s with pins := ⟨s.tx.attempts, .setPin⟩ :: s.pins } else s

/-- The next step of the goroutine of a call of `SetToken`.
Source: `ukey_tx.go`, `UKeyTx.setPassword`. -/
def pin (s : UKeySteps) (p : UKeyPin) (device : Option String) : Option UKeySteps :=
  if p ∈ s.pins then
    let rest := s.pins.erase p
    some (match p.stage with
      | .setPin => { s with pins := ⟨p.attempt, .calling s.tx.verificationId⟩ :: rest }
      | .calling id =>
          match s.manager.setPin id device with
          | none => { s with pins := rest }
          | some err => { s with pins := ⟨p.attempt, .giveStatus err⟩ :: rest }
      | .giveStatus err =>
          { s with pins := rest, tx := s.tx.called s.tx.attempts (some err.text) })
  else none

/-- One step. Source: `ukey_tx.go`. -/
def move (s : UKeySteps) : UKeyStep → Option UKeySteps
  | .act a => s.act a
  | .signal n id sig => s.signal n id sig
  | .handle n sig => s.handle n sig
  | .setToken => some s.setToken
  | .pin p device => s.pin p device

/-- The state before a step, with nothing sent yet. -/
def clearSent (s : UKeySteps) : UKeySteps := { s with tx := { s.tx with sent := [] } }

/-- One step, observed through the statuses that it gives. -/
def step (s : UKeySteps) (a : UKeyStep) : Option (UKeySteps × List Given) :=
  (s.clearSent.move a).map fun s => (s, s.tx.sent)

/-! ## What a step comes to -/

variable {s s' : UKeySteps} {a : UKeyStep}

/-- The ways in which a step goes, each with what it has found and the state that it leaves: a step
that is as coarse as before (`act`), a signal that the handlers hear, the handling of one, and the
steps of a call of `SetToken`. -/
inductive Next (s : UKeySteps) : UKeyStep → UKeySteps → Prop
  | act {a w o} (ha : a.isRefined = false) (hw : s.toUKeyVerify.move a = some (w, o)) :
      Next s (.act a)
        { s with
          toUKeyVerify := w
          verifying := ((s.begins a).toList ++ s.verifying).filter (awaits w) }
  | verifyResult {n id ok} (hn : n ≤ s.tx.attempts)
      (hfree : s.tx.handlers = true → s.heard = none) :
      Next s (.signal n id (.verifyResult ok))
        { s with
          verifying := s.verifying.filter (·.1 ≠ n)
          heard := if s.tx.handlers = true ∧ id = s.tx.verificationId then
            some (n, .verifyResult ok) else s.heard }
  | state {n id st} (hn : n ≤ s.tx.attempts) (hfree : s.tx.handlers = true → s.heard = none) :
      Next s (.signal n id (.state st))
        { s with
          heard := if s.tx.handlers = true ∧ id = s.tx.verificationId then some (n, .state st)
            else s.heard }
  | handleResult {n ok} (hheard : s.heard = some (n, .verifyResult ok)) :
      Next s (.handle n (.verifyResult ok))
        { s with heard := none, tx := s.tx.verifyResult s.tx.verificationId ok }
  | handleState {n st} (hheard : s.heard = some (n, .state st)) :
      Next s (.handle n (.state st))
        { s with heard := none, tx := s.tx.state s.tx.verificationId st }
  | setToken (hdev : s.tx.devState = .verifying) :
      Next s .setToken { s with pins := ⟨s.tx.attempts, .setPin⟩ :: s.pins }
  | notVerifying (hdev : s.tx.devState ≠ .verifying) : Next s .setToken s
  | pinGoes {p device stage} (hp : p ∈ s.pins) (hstage : ∀ err, p.stage ≠ .giveStatus err) :
      Next s (.pin p device) { s with pins := ⟨p.attempt, stage⟩ :: s.pins.erase p }
  | pinReturns {p device} (hp : p ∈ s.pins) (hstage : ∀ err, p.stage ≠ .giveStatus err) :
      Next s (.pin p device) { s with pins := s.pins.erase p }
  | pinGives {p device err} (hp : p ∈ s.pins) (hstage : p.stage = .giveStatus err) :
      Next s (.pin p device)
        { s with
          pins := s.pins.erase p, tx := s.tx.called s.tx.attempts (some err.text) }

/-- **The inversion**: a step that is taken goes in one of these ways. -/
theorem next_of_move (hs : s.move a = some s') : s.Next a s' := by
  cases a with
  | act a =>
      obtain ⟨ha, hs⟩ := Option.ite_none_left_eq_some.mp hs
      obtain ⟨⟨w, o⟩, hw, rfl⟩ := Option.map_eq_some_iff.mp hs
      exact .act (by simpa using ha) hw
  | signal n id sig =>
      obtain ⟨⟨hn, hfree⟩, heq⟩ := Option.ite_none_right_eq_some.mp hs
      cases heq
      cases sig with
      | verifyResult ok => exact .verifyResult hn hfree
      | state st => exact .state hn hfree
  | handle n sig =>
      obtain ⟨hheard, heq⟩ := Option.ite_none_right_eq_some.mp hs
      cases heq
      cases sig with
      | verifyResult ok => exact .handleResult hheard
      | state st => exact .handleState hheard
  | setToken =>
      cases hs
      unfold setToken
      split_ifs with hdev
      · exact .setToken hdev
      · exact .notVerifying hdev
  | pin p device =>
      obtain ⟨hp, heq⟩ := Option.ite_none_right_eq_some.mp hs
      rcases hstage : p.stage with _ | id | err <;> simp only [hstage] at heq
      · cases heq
        exact .pinGoes hp (by simp [hstage])
      · rcases hcall : s.manager.setPin id device with _ | err <;> simp only [hcall] at heq
        · cases heq
          exact .pinReturns hp (by simp [hstage])
        · cases heq
          exact .pinGoes hp (by simp [hstage])
      · cases heq
        exact .pinGives hp hstage

/-! ## Where nothing comes in between -/

/-- **A signal that is handled at once**: its two steps come to one step of `UKeyVerify`. -/
theorem signal_alone (hon : s.tx.handlers = true) (hfree : s.heard = none) {n : ℕ}
    (hn : n ≤ s.tx.attempts) (sig : UKeySignal) :
    ∃ s₁ s₂, s.move (.signal n s.tx.verificationId sig) = some s₁ ∧
      s₁.move (.handle n sig) = some s₂ ∧ s₂.heard = none ∧
      s.toUKeyVerify.move (match sig with
        | .verifyResult ok => .verifyResult s.tx.verificationId ok
        | .state st => .state s.tx.verificationId st) = some (s₂.toUKeyVerify, none) := by
  have hsignal : n ≤ s.tx.attempts ∧ (s.tx.handlers = true → s.heard = none) :=
    ⟨hn, fun _ => hfree⟩
  cases sig with
  | verifyResult ok =>
      refine ⟨_, _, if_pos hsignal, if_pos (if_pos ⟨hon, rfl⟩), rfl, ?_⟩
      simp only [UKeyVerify.move, UKeyVerify.txStep, UKeyTx.step, if_pos hon, Option.map_some]
  | state st =>
      refine ⟨_, _, if_pos hsignal, if_pos (if_pos ⟨hon, rfl⟩), rfl, ?_⟩
      simp only [UKeyVerify.move, UKeyVerify.txStep, UKeyTx.step, if_pos hon, Option.map_some]

/-- **A call of `SetToken` that nothing comes in between**: its steps come to one step of
`UKeyVerify`, whether `SetPin` succeeds or fails. -/
theorem pin_alone (hdev : s.tx.devState = .verifying) (device : Option String) :
    ∃ acts s' os, run step s acts = some (s', os) ∧ s'.pins = s.pins ∧
      s.clearSent.toUKeyVerify.move (.setPassword device) = some (s'.toUKeyVerify, none) := by
  rcases hpin : s.manager.setPin s.tx.verificationId device with _ | err
  · refine ⟨[.setToken, .pin ⟨s.tx.attempts, .setPin⟩ device,
      .pin ⟨s.tx.attempts, .calling s.tx.verificationId⟩ device], ?_⟩
    simp [run, step, move, setToken, pin, clearSent, UKeyVerify.move, UKeyVerify.txStep,
      UKeyTx.step, UKeyTx.called, hdev, hpin]
  · refine ⟨[.setToken, .pin ⟨s.tx.attempts, .setPin⟩ device,
      .pin ⟨s.tx.attempts, .calling s.tx.verificationId⟩ device,
      .pin ⟨s.tx.attempts, .giveStatus err⟩ device], ?_⟩
    simp [run, step, move, setToken, pin, clearSent, UKeyVerify.move, UKeyVerify.txStep,
      UKeyTx.step, UKeyTx.called, hdev, hpin]

end UKeySteps

end LingmoAuthenticate.Session
