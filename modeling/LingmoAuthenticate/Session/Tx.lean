import LingmoAuthenticate.Session.Status

/-!
# What all transactions share: `tx.go`

A transaction carries one factor of a session. It keeps the status given last, the device state
that the status stands for, and its own copy of the lock; every status given is sent to the
controller.

* `BaseTx.giveStatus`: what giving a status changes.
* `setLockStateWith`: the body that the six copies of `setLockState` share.
* `setLockStateWith_eq`: it never calls the `end` of the transaction, whatever that does.
-/

namespace LingmoAuthenticate.Session

open AuthCommon

/-- What an `end` is to close: the verification only, or all that the transaction has acquired.
Source: `tx.go`, `closeType`. -/
inductive CloseType where
  | closeVerify
  | closeAllResource
  deriving DecidableEq, Repr

/-- A status sent to the controller; `attempt` says which attempt of the factor it is given for,
and is not part of the program. -/
structure Given where
  attempt : ℕ
  status : VerifyStatus
  deriving DecidableEq, Repr

/-- Source: `tx.go`, `baseTx`. Two fields are not part of the program: `attempts` counts the
attempts that were started, and `sent` is what the present call has sent to the controller. -/
structure BaseTx where
  type0 : AuthType
  status : Option VerifyStatus
  devState : DevState
  lockState : LockState
  attempts : ℕ
  sent : List Given
  deriving DecidableEq, Repr

namespace BaseTx

/-- Source: `tx.go`, `baseTx.init`. -/
def init (type0 : AuthType) (lockState : LockState) : BaseTx :=
  ⟨type0, none, .idle, lockState, 0, []⟩

/-- Give a status for the attempt `n`. Source: `tx.go`, `baseTx.giveStatus`. -/
def giveStatus (bt : BaseTx) (n : ℕ) (s : VerifyStatus) : BaseTx :=
  { bt with
    status := some s
    devState := statusCodeToDevState s.s
    sent := bt.sent ++ [⟨n, s⟩] }

@[simp] theorem giveStatus_type0 (bt : BaseTx) (n : ℕ) (s : VerifyStatus) :
    (bt.giveStatus n s).type0 = bt.type0 := rfl

@[simp] theorem giveStatus_devState (bt : BaseTx) (n : ℕ) (s : VerifyStatus) :
    (bt.giveStatus n s).devState = statusCodeToDevState s.s := rfl

@[simp] theorem giveStatus_lockState (bt : BaseTx) (n : ℕ) (s : VerifyStatus) :
    (bt.giveStatus n s).lockState = bt.lockState := rfl

@[simp] theorem giveStatus_attempts (bt : BaseTx) (n : ℕ) (s : VerifyStatus) :
    (bt.giveStatus n s).attempts = bt.attempts := rfl

@[simp] theorem giveStatus_sent (bt : BaseTx) (n : ℕ) (s : VerifyStatus) :
    (bt.giveStatus n s).sent = bt.sent ++ [⟨n, s⟩] := rfl

/-- A controller starts an attempt of this transaction.
Source: `normal_verify.go` and `multifactor_verify.go`, `authenticate`, the test on each `tx`. -/
def canStart (bt : BaseTx) : Bool := bt.devState = .idle && bt.lockState = .unlock

/-- What is left of `setLockState` when `end` is not called. -/
def notifyLock (bt : BaseTx) (s : LockState) : BaseTx :=
  { if bt.lockState ≠ s then
      bt.giveStatus bt.attempts (newVerifyStatus s.toStatusCode true "")
    else bt with
    lockState := s }

@[simp] theorem notifyLock_lockState (bt : BaseTx) (s : LockState) :
    (bt.notifyLock s).lockState = s := rfl

@[simp] theorem notifyLock_attempts (bt : BaseTx) (s : LockState) :
    (bt.notifyLock s).attempts = bt.attempts := by
  unfold notifyLock
  split_ifs <;> rfl

/-- Neither status that tells of a lock makes a transaction verify. -/
theorem notifyLock_devState (bt : BaseTx) (s : LockState) :
    (bt.notifyLock s).devState = .verifying → bt.devState = .verifying ∧ bt.lockState = s := by
  unfold notifyLock
  split_ifs with h
  · intro hv
    cases s <;> cases hv
  · exact fun hv => ⟨hv, not_not.mp h⟩

end BaseTx

/-! ## The lock of a transaction -/

/-- The body of the six copies of `setLockState`: tell of the change, and end a verification that
is running; `base` and `withBase` are the transaction's view of its `baseTx`, and `endTx` is its
`end(closeVerify)`. -/
def setLockStateWith {τ : Type*} (base : τ → BaseTx) (withBase : τ → BaseTx → τ)
    (endTx : τ → Option τ) (s : LockState) (tx : τ) : Option τ :=
  let ended :=
    if (base tx).lockState ≠ s then
      let tx := withBase tx
        ((base tx).giveStatus (base tx).attempts (newVerifyStatus s.toStatusCode true ""))
      if s = .locked ∧ (base tx).devState = .verifying then endTx tx else some tx
    else some tx
  ended.map fun tx => withBase tx { base tx with lockState := s }

/-- Telling of the lock moves the device state out of `verifying` before it is tested, so that
`end` is never called. -/
theorem setLockStateWith_eq {τ : Type*} {base : τ → BaseTx} {withBase : τ → BaseTx → τ}
    (hbase : ∀ tx b, base (withBase tx b) = b)
    (hwith : ∀ tx b b', withBase (withBase tx b) b' = withBase tx b')
    (endTx : τ → Option τ) (s : LockState) (tx : τ) :
    setLockStateWith base withBase endTx s tx = some (withBase tx ((base tx).notifyLock s)) := by
  unfold setLockStateWith BaseTx.notifyLock
  dsimp only
  split_ifs with hs hend
  · -- the state that the guard reads is the one of the `Locked` status
    obtain ⟨rfl, hverify⟩ := hend
    rw [hbase, BaseTx.giveStatus_devState] at hverify
    cases hverify
  · simp only [Option.map_some, hbase, hwith]
  · rfl

end LingmoAuthenticate.Session
