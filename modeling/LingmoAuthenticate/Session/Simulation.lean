import LingmoAuthenticate.Session.CameraVerify
import LingmoAuthenticate.Session.CustomSteps
import LingmoAuthenticate.Session.FingerprintSteps
import LingmoAuthenticate.Session.Inversion
import LingmoAuthenticate.Session.PasswordSteps
import LingmoAuthenticate.Session.Timeout

/-!
# The transactions, as runs of the fine ones

Four kinds of transaction are modelled twice: as one of the machines of `Transactions`, where an
action is a whole call or what a goroutine does between two waits, and step by step, where others
can come in between. In a run whose actions are foreseen the first does nothing that the second
does not: each action is a run of the fine machine that nothing comes between, and gives the same
statuses. What a fine machine gives in no run is therefore not given in such a run either.

A relation `Shows` for each kind says what the fine state looks like between two calls. The coarse
machines let the environment answer at will, and `Tx.Foreseen` says which of its answers the fine
ones follow: a driver that starts, a device that ends a verification or is told to, a token that
comes while the factor verifies, as the test of `Manager.SetToken` has it. Each kind has a module of
its own, which proves that an action is a run (`takesApart`), and so is every run of a new
transaction (`leads_of_run`). For a key `UKeySteps.signal_alone`, `UKeySteps.pin_alone` and
`UKeyVerify.run_start_alone` say it of the steps that can come apart.

* `BaseTx.Same`: what the two have in common.
* `Tx.Foreseen`: the actions that the fine machines follow.
-/

namespace LingmoAuthenticate.Session

open Lib AuthCommon

/-! ## What the machines share -/

/-- The part that all transactions share is the same, but for what has been sent in the last
step. -/
structure BaseTx.Same (b b' : BaseTx) : Prop where
  type0 : b.type0 = b'.type0
  status : b.status = b'.status
  devState : b.devState = b'.devState
  lockState : b.lockState = b'.lockState
  attempts : b.attempts = b'.attempts

namespace BaseTx.Same

variable {b b' b'' : BaseTx}

theorem refl (b : BaseTx) : b.Same b := ⟨rfl, rfl, rfl, rfl, rfl⟩

theorem trans (h : b.Same b') (h' : b'.Same b'') : b.Same b'' :=
  ⟨h.type0.trans h'.type0, h.status.trans h'.status, h.devState.trans h'.devState,
    h.lockState.trans h'.lockState, h.attempts.trans h'.attempts⟩

/-- With nothing sent, both are one. -/
theorem quiet (h : b.Same b') : ({ b with sent := [] } : BaseTx) = { b' with sent := [] } := by
  cases b
  cases b'
  obtain ⟨h₁, h₂, h₃, h₄, h₅⟩ := h
  cases h₁
  cases h₂
  cases h₃
  cases h₄
  cases h₅
  rfl

/-- What has been sent does not matter. -/
theorem resent (h : b.Same b') (l l' : List Given) :
    ({ b with sent := l } : BaseTx).Same { b' with sent := l' } :=
  ⟨h.type0, h.status, h.devState, h.lockState, h.attempts⟩

end BaseTx.Same

/-- How a verification by the device can turn out: the device fails or ends it with a code of its
own, and it is told to quit only where `quit` is closed. -/
def DoVerify.FromDevice (quit : Bool) (d : DoVerify) : Prop :=
  d.verifyErr.isSome ∨ isVerifyStatusDone d.code = true ∨ d.code = -1 ∧ quit = true

/-- A camera attempt comes to its loop, and is told to quit there only where `quit` is closed. -/
def CameraLeave.FromLoop (quit : Option Bool) : CameraLeave → Prop
  | .error _ => False
  | .quit => quit = some true
  | _ => True

/-- PAM starts for each session of a password. -/
def PasswordTx.Foreseen : PasswordAction → Prop
  | .authenticate pamStarts => pamStarts = true
  | _ => True

/-- An attempt leaves the device, and one that an `end` waits for has been told to quit. -/
def FingerprintTx.Foreseen (tx : FingerprintTx) : FingerprintAction → Prop
  | .verify _ d => d.FromDevice tx.quit
  | .endTx _ waited => waited.FromDevice true
  | _ => True

/-- A camera starts where the attempt before it has been ended, and each attempt leaves from its
loop. -/
def CameraTx.Foreseen {c : CameraType} (tx : CameraTx c) : CameraAction → Prop
  | .authenticate => tx.isEnded = true ∨ tx.attempts = 0
  | .leave l => l.FromLoop tx.quit
  | .endTx _ waited => waited.FromLoop (if tx.devState = .verifying then some true else tx.quit)
  | _ => True

/-- A custom token comes while the factor verifies. -/
def CustomTx.Foreseen (tx : CustomTx) (a : CustomAction) : Prop :=
  a = .setPassword → tx.devState = .verifying

/-- What the callers, the devices and PAM do in an action, for a transaction of any kind. -/
def Tx.Foreseen : Tx → TxAction → Prop
  | .password _, .password a => PasswordTx.Foreseen a
  | .fingerprint tx, .fingerprint a => tx.Foreseen a
  | .face tx, .camera a => tx.Foreseen a
  | .iris tx, .camera a => tx.Foreseen a
  | .custom tx, .custom a => tx.Foreseen a
  | _, _ => True

end LingmoAuthenticate.Session
