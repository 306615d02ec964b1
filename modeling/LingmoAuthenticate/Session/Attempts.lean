import LingmoAuthenticate.Lib.Episodes
import LingmoAuthenticate.Session.CameraVerify
import LingmoAuthenticate.Session.CustomSteps
import LingmoAuthenticate.Session.FingerprintSteps
import LingmoAuthenticate.Session.UKeySteps

/-!
# The attempts of a transaction

The six kinds of transaction, taken apart into steps, as machines that serve one attempt after
another: which step asks an attempt to end, which lets its `end` return, and which lets it stop by
itself. A call of `end` is one for the attempt that was the last when it came, and it has ended when
the call returns; a password attempt has ended also when its prompt is cancelled. A password attempt
is known by its PAM session, the others by their number.

* `Quiet`: what is given is neither a result nor an outcome.
* `TxKind.episodes`: the attempts of each kind.
-/

namespace LingmoAuthenticate.Session

open Lib AuthCommon

/-- A success, a failure or an error. -/
def VerifyStatus.isResult (v : VerifyStatus) : Bool :=
  v.s = .success || v.s = .failure || v.s = .error

/-- Nothing that is given is a result, or the outcome of an attempt. -/
def Quiet (isOutcome : Given → Bool) (sent : List Given) : Prop :=
  ∀ g ∈ sent, isOutcome g = false ∧ g.status.isResult = false

section quiet

variable {isOutcome : Given → Bool} {sent : List Given}

theorem quiet_nil : Quiet isOutcome [] := by
  intro g hg
  cases hg

theorem quiet_of_eq_nil (h : sent = []) : Quiet isOutcome sent := h ▸ quiet_nil

/-- One more status that is neither. -/
theorem Quiet.append (h : Quiet isOutcome sent) {g : Given} (hout : isOutcome g = false)
    (hres : g.status.isResult = false) : Quiet isOutcome (sent ++ [g]) := by
  intro g' hg'
  rcases List.mem_append.mp hg' with hg' | hg'
  · exact h g' hg'
  · rw [List.mem_singleton.mp hg']
    exact ⟨hout, hres⟩

/-- A lock notification gives no result. -/
theorem quiet_notifyLock {bt : BaseTx} (h : bt.sent = []) (l : LockState) :
    Quiet (fun _ => false) (bt.notifyLock l).sent := by
  unfold BaseTx.notifyLock
  split_ifs
  · refine (quiet_of_eq_nil h).append rfl ?_
    cases l <;> rfl
  · exact quiet_of_eq_nil h

end quiet

/-! ## Passwords -/

namespace PasswordSteps

/-- A call of `end` comes. -/
def requests (s : PasswordSteps) : PasswordStep → Option ℕ
  | .endTx j => if s.ends j = .idle then s.session else none
  | _ => none

/-- A call of `end` returns, or the goroutine finds its prompt cancelled. -/
def endsAttempt (s : PasswordSteps) : PasswordStep → Option ℕ
  | .endReset j =>
      match s.ends j with
      | .given o => o
      | _ => none
  | .receiveClosed n => some (s.targets n)
  | _ => none

/-- The goroutine gives its verdict and returns, or drops it and returns. -/
def stops (s : PasswordSteps) : PasswordStep → Option ℕ
  | .testId n =>
      match s.pams n with
      | .testing _ .returned =>
          if ((s.sessionOf n).id : ℤ) = s.sessionId then none else some (s.targets n)
      | _ => none
  | .give n =>
      match s.pams n with
      | .giving _ .returned => some (s.targets n)
      | _ => none
  | _ => none

/-- A lock notification is no outcome of an attempt. -/
def isOutcome : PasswordStep → Given → Bool
  | .setLockState _, _ => false
  | _, g => !PasswordTx.shouldIgnore g.status.s

/-- The attempts of a password transaction. -/
def episodes : Episodes PasswordSteps PasswordStep Given where
  step := step
  requests := requests
  ends s _ := s.endsAttempt
  stops := stops
  refuses _ _ := none
  origin _ g := g.attempt
  isResult g := g.status.isResult
  isOutcome := isOutcome
  busy s := s.devState = .verifying

end PasswordSteps

/-! ## Fingerprints -/

namespace FingerprintSteps

/-- A call of `end` comes. -/
def requests (s : FingerprintSteps) : FingerprintStep → Option ℕ
  | .endTx => if s.ending = none then some s.attempts else none
  | _ => none

/-- A call of `end` returns, at once where the transaction is marked. -/
def endsAttempt (s : FingerprintSteps) : FingerprintStep → Option ℕ
  | .endTx => if s.ending = none ∧ s.isEnded = true then some s.attempts else none
  | .endMark =>
      match s.ending with
      | some (.given n) => some n
      | _ => none
  | _ => none

/-- The goroutine gives what `verify` has returned, if anything, and returns. -/
def stops (s : FingerprintSteps) : FingerprintStep → Option ℕ
  | .give n =>
      match s.phases n with
      | .released _ => some n
      | _ => none
  | _ => none

/-- A lock notification is no outcome of an attempt. -/
def isOutcome : FingerprintStep → Given → Bool
  | .setLockState _, _ => false
  | _, g => !FingerprintTx.shouldIgnore g.status.s

/-- The attempts of a fingerprint transaction. -/
def episodes : Episodes FingerprintSteps FingerprintStep Given where
  step := step
  requests := requests
  ends s _ := s.endsAttempt
  stops := stops
  refuses _ _ := none
  origin _ g := g.attempt
  isResult g := g.status.isResult
  isOutcome := isOutcome
  busy s := s.devState = .verifying

end FingerprintSteps

/-! ## Cameras -/

namespace CameraVerify

variable {c : CameraType}

/-- A call of `end` comes. -/
def requests (s : CameraVerify c) : CameraVerifyStep → Option ℕ
  | .endTx => if s.ending = none then some s.attempts else none
  | _ => none

/-- A call of `end` returns, at once where the transaction is marked. -/
def endsAttempt (s : CameraVerify c) (requested : List ℕ) : CameraVerifyStep → Option ℕ
  | .endTx => if s.ending = none ∧ s.isEnded = true then some s.attempts else none
  | .endRelease => if s.ending = some .marked then requested.head? else none
  | _ => none

/-- The goroutine gives what `verify` has returned, if anything, and returns. -/
def stops (s : CameraVerify c) : CameraVerifyStep → Option ℕ
  | .finish =>
      match s.phase with
      | some (.left _) => some s.attempts
      | _ => none
  | _ => none

/-- The driver does not start. -/
def refuses (s : CameraVerify c) : CameraVerifyStep → Option ℕ
  | .verifyStart false =>
      match s.phase with
      | some (.registered _) => some s.attempts
      | _ => none
  | _ => none

/-- A lock notification is no outcome of an attempt. -/
def isOutcome (c : CameraType) : CameraVerifyStep → Given → Bool
  | .setLockState _, _ => false
  | _, g =>
      match c with
      | .face => !FaceTx.shouldIgnore g.status.s
      | .iris => !IrisTx.shouldIgnore g.status.s

/-- The attempts of a face or iris transaction. -/
def episodes (c : CameraType) : Episodes (CameraVerify c) CameraVerifyStep Given where
  step := step
  requests := requests
  ends := endsAttempt
  stops := stops
  refuses := refuses
  origin _ g := g.attempt
  isResult g := g.status.isResult
  isOutcome := isOutcome c
  busy s := s.devState = .verifying

end CameraVerify

/-! ## Keys -/

namespace UKeySteps

/-- A call of `end` comes, and returns; the handler of `State` calls it for a device that fails or
is gone. -/
def requests (s : UKeySteps) : UKeyStep → Option ℕ
  | .act (.endTx _) => some s.tx.attempts
  | .handle _ (.state st) =>
      if st = .deviceException ∨ st = .deviceNotExist then some s.tx.attempts else none
  | _ => none

/-- The goroutine of an attempt hands the verification over to the service, so that an attempt stops
with the verdict of the service, or where the service does not start. -/
def stopsAttempt : UKeyStep → Option ℕ
  | .act (.goroutine ⟨n, .giveStatus _⟩ _) => some n
  | .handle n (.verifyResult _) => some n
  | _ => none

/-- The attempt that a status comes from: that of the goroutine, or the one which the signal is
about; the code has one id for all. -/
def origin : UKeyStep → Given → ℕ
  | .act (.goroutine g _), _ => g.attempt
  | .handle n _, _ => n
  | .pin p _, _ => p.attempt
  | _, g => g.attempt

/-- A lock notification is no outcome of an attempt. -/
def isOutcome : UKeyStep → Given → Bool
  | .act (.setLockState _), _ => false
  | _, g => !UKeyTx.shouldIgnore g.status.s

/-- The attempts of a key transaction. -/
def episodes : Episodes UKeySteps UKeyStep Given where
  step := step
  requests := requests
  ends s _ := s.requests
  stops _ := stopsAttempt
  refuses _ _ := none
  origin := origin
  isResult g := g.status.isResult
  isOutcome := isOutcome
  busy s := s.tx.devState = .verifying

end UKeySteps

/-! ## Custom transactions -/

namespace CustomSteps

/-- A call of `end` comes. -/
def requests (s : CustomSteps) : CustomStep → Option ℕ
  | .endTx => if s.ending = none then some s.attempts else none
  | _ => none

/-- A call of `end` returns, at once where the transaction is marked. -/
def endsAttempt (s : CustomSteps) (requested : List ℕ) : CustomStep → Option ℕ
  | .endTx => if s.ending = none ∧ s.isEnded = true then some s.attempts else none
  | .endClose => if s.ending = some .marked then requested.head? else none
  | _ => none

/-- The goroutine gives its success and returns, or finds its channel closed and returns. -/
def stops (s : CustomSteps) : CustomStep → Option ℕ
  | .give n => if s.verifies n = .giving then some n else none
  | .receiveClosed n =>
      match s.verifies n with
      | .receiving c => if s.chans.closed c then some n else none
      | _ => none
  | _ => none

/-- A lock notification is no outcome of an attempt. -/
def isOutcome : CustomStep → Given → Bool
  | .setLockState _, _ => false
  | _, g => !CustomTx.shouldIgnore g.status.s

/-- The attempts of a custom transaction. -/
def episodes : Episodes CustomSteps CustomStep Given where
  step := step
  requests := requests
  ends := endsAttempt
  stops := stops
  refuses _ _ := none
  origin _ g := g.attempt
  isResult g := g.status.isResult
  isOutcome := isOutcome
  busy s := s.devState = .verifying

end CustomSteps

/-! ## All kinds -/

namespace TxKind

/-- The state of a transaction. -/
def State : TxKind → Type
  | .password => PasswordSteps
  | .fingerprint => FingerprintSteps
  | .face => CameraVerify .face
  | .iris => CameraVerify .iris
  | .uKey => UKeySteps
  | .custom => CustomSteps

/-- The steps of a transaction. -/
def Step : TxKind → Type
  | .password => PasswordStep
  | .fingerprint => FingerprintStep
  | .face | .iris => CameraVerifyStep
  | .uKey => UKeyStep
  | .custom => CustomStep

/-- A new transaction, that of a key beside a manager in any state; the type matters for the
password kind, which serves Active Directory too. -/
def initial (type0 : AuthType) (lockState : LockState) (manager : UKey.Manager) :
    (k : TxKind) → k.State
  | .password => PasswordSteps.new type0 lockState
  | .fingerprint => FingerprintSteps.new lockState
  | .face => CameraVerify.new .face lockState
  | .iris => CameraVerify.new .iris lockState
  | .uKey => UKeySteps.new manager lockState
  | .custom => CustomSteps.new lockState

/-- The attempts of a transaction. -/
def episodes : (k : TxKind) → Episodes k.State k.Step Given
  | .password => PasswordSteps.episodes
  | .fingerprint => FingerprintSteps.episodes
  | .face => CameraVerify.episodes .face
  | .iris => CameraVerify.episodes .iris
  | .uKey => UKeySteps.episodes
  | .custom => CustomSteps.episodes

end TxKind

end LingmoAuthenticate.Session
