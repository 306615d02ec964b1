import LingmoAuthenticate.Session.Transactions

/-!
# What a step of a transaction comes to

A call that is made and a goroutine that moves have passed the guards of their step. For each kind
of transaction, `Next` lists the ways in which a step can go, with what it has found on the way and
the state that it leaves; whatever holds of the steps of a transaction follows case by case from it.

* `PasswordTx.next_of_step`, `FingerprintTx.next_of_step`, `CameraTx.next_of_step`,
  `UKeyTx.next_of_step` and `CustomTx.next_of_step`: a step that is taken is one of these.
* `Calls.base`: what a step does to the part that all transactions share. Attempts are only added
  (`Tx.attempts_step`), and the lock is noted by `setLockState` only (`Tx.step_lockState`).
-/

namespace LingmoAuthenticate.Session

open Lib AuthCommon

/-! ## Passwords -/

namespace PasswordTx

/-- The ways in which a step of a password transaction goes: a start, a token for the goroutine, a
prompt of PAM, its verdict, an `end` or a lock notification. -/
inductive Next (pt : PasswordTx) : PasswordAction → PasswordTx → Prop
  | authenticate {pamStarts} (hcan : pt.canStart = true) :
      Next pt (.authenticate pamStarts) (pt.authenticate pamStarts)
  | setPassword : Next pt .setPassword pt
  | respondPAM {a msg} (ha : a ∈ pt.running) :
      Next pt (.respondPAM a msg) (pt.sendStatus a (newVerifyStatus .prompt false msg))
  | doAuth {a ok} (ha : a ∈ pt.running) :
      Next pt (.doAuth a ok) ({ pt with running := pt.running.erase a }.sendStatus a
        (newVerifyStatus (if ok then .success else .failure) true ""))
  | endTx {ct} : Next pt (.endTx ct) (pt.endTx ct)
  | setLockState {s} : Next pt (.setLockState s) { pt with toBaseTx := pt.notifyLock s }

theorem next_of_step {pt pt' : PasswordTx} {a : PasswordAction} (hs : pt.step a = some pt') :
    pt.Next a pt' := by
  cases a with
  | authenticate pamStarts =>
      obtain ⟨hcan, heq⟩ := Option.ite_none_right_eq_some.mp hs
      cases heq
      exact .authenticate hcan
  | setPassword =>
      simp only [step, PasswordTx.setPassword] at hs
      split at hs
      · obtain ⟨-, heq⟩ := Option.ite_none_left_eq_some.mp hs
        cases heq
        exact .setPassword
      · cases hs
  | respondPAM a msg =>
      obtain ⟨ha, heq⟩ := Option.ite_none_right_eq_some.mp hs
      cases heq
      exact .respondPAM ha
  | doAuth a ok =>
      obtain ⟨ha, heq⟩ := Option.ite_none_right_eq_some.mp hs
      cases heq
      exact .doAuth ha
  | endTx ct =>
      cases hs
      exact .endTx
  | setLockState s =>
      cases (pt.setLockState_eq s).symm.trans hs
      exact .setLockState

end PasswordTx

/-! ## Fingerprints -/

namespace FingerprintTx

/-- The ways in which a step of a fingerprint transaction goes: a call of `end` returns at once
where the transaction is marked, it waits for its attempt where that verifies and has not closed
`release`, and otherwise marks the transaction. -/
inductive Next (ft : FingerprintTx) : FingerprintAction → FingerprintTx → Prop
  | notClaimed {err} (hcan : ft.canStart = true) : Next ft (.authenticate (some err)) ft
  | started (hcan : ft.canStart = true) : Next ft (.authenticate none) (ft.authenticate none)
  | verify {n d ft'} (hv : ft.verify n d = some ft') : Next ft (.verify n d) ft'
  | give {g} (hg : g ∈ ft.pending) :
      Next ft (.give g)
        ({ ft with pending := ft.pending.erase g }.giveStatus g.attempt g.status)
  | wasEnded {ct waited} (hend : ft.isEnded = true) : Next ft (.endTx ct waited) ft
  | endIdle {ct waited} (hend : ft.isEnded = false) (hdev : ft.devState ≠ .verifying) :
      Next ft (.endTx ct waited)
        { ft.giveStatus ft.attempts defaultVerifyStatusEnd with isEnded := true }
  | endReleased {ct waited} (hend : ft.isEnded = false) (hdev : ft.devState = .verifying)
      (hquit : ft.quit = false) (hrel : ft.release = true) :
      Next ft (.endTx ct waited)
        { ft.giveStatus ft.attempts defaultVerifyStatusEnd with quit := true, isEnded := true }
  | endWaited {ct waited ft'} (hend : ft.isEnded = false) (hdev : ft.devState = .verifying)
      (hquit : ft.quit = false) (hrel : ft.release = false)
      (hv : FingerprintTx.verify { ft with quit := true } ft.attempts waited = some ft') :
      Next ft (.endTx ct waited)
        { ft'.giveStatus ft'.attempts defaultVerifyStatusEnd with isEnded := true }
  | setLockState {s waited} :
      Next ft (.setLockState s waited) { ft with toBaseTx := ft.notifyLock s }

theorem next_of_step {ft ft' : FingerprintTx} {a : FingerprintAction}
    (hs : ft.step a = some ft') : ft.Next a ft' := by
  cases a with
  | authenticate claimErr =>
      obtain ⟨hcan, heq⟩ := Option.ite_none_right_eq_some.mp hs
      cases heq
      cases claimErr with
      | none => exact .started hcan
      | some err => exact .notClaimed hcan
  | verify n d => exact .verify hs
  | give g =>
      obtain ⟨hg, heq⟩ := Option.ite_none_right_eq_some.mp hs
      cases heq
      exact .give hg
  | endTx ct waited =>
      simp only [step, FingerprintTx.endTx] at hs
      by_cases hend : ft.isEnded = true
      · rw [if_pos hend] at hs
        cases hs
        exact .wasEnded hend
      · rw [if_neg hend] at hs
        have hend : ft.isEnded = false := by simpa using hend
        obtain ⟨ft₁, hwait, rfl⟩ := Option.map_eq_some_iff.mp hs
        split_ifs at hwait with hdev hquit hrel
        · cases hwait
          exact .endReleased hend hdev (by simpa using hquit) hrel
        · exact .endWaited hend hdev (by simpa using hquit) (by simpa using hrel) hwait
        · cases hwait
          exact .endIdle hend hdev
  | setLockState s waited =>
      cases (ft.setLockState_eq s waited).symm.trans hs
      exact .setLockState

end FingerprintTx

/-! ## Cameras -/

namespace CameraTx

variable {c : CameraType}

/-- The call of `end` closes `quit` where the transaction verifies; the channel is open then, as
closing it again would panic. -/
inductive Quits (ft : CameraTx c) : Option Bool → Prop
  | idle (hdev : ft.devState ≠ .verifying) : Quits ft ft.quit
  | closed (hdev : ft.devState = .verifying) (hquit : ft.quit = some false) : Quits ft (some true)

/-- The ways in which a step of a face or iris transaction goes: a call of `end` returns at once
where the transaction is marked, and otherwise once `release` is closed. -/
inductive Next (ft : CameraTx c) : CameraAction → CameraTx c → Prop
  | started {ft'} (hcan : ft.canStart = true) (hrunning : ft.running = none)
      (hpending : ft.pending = none) (hft : ft' = (({ ft with
        quit := some false, release := some false, isEnded := false, attempts := ft.attempts + 1,
        running := some (ft.attempts + 1) }.giveStatus (ft.attempts + 1)
          defaultVerifyStatusStarted).giveStatus (ft.attempts + 1)
          (newVerifyStatus .prompt false c.prompt))) : Next ft .authenticate ft'
  | restarted {code n} (hn : ft.running = some n) : Next ft (.code code) ft
  | passedOn {code n} (hn : ft.running = some n) :
      Next ft (.code code) (ft.giveStatus n (newVerifyStatus .verify false (c.text code)))
  | leave {l ft'} (hl : ft.leave l = some ft') : Next ft (.leave l) ft'
  | give {g} (hg : ft.pending = some g) :
      Next ft .give ({ ft with pending := none }.giveStatus g.attempt g.status)
  | wasEnded {ct waited} (hend : ft.isEnded = true) : Next ft (.endTx ct waited) ft
  | endReleased {ct waited q} (hend : ft.isEnded = false) (hq : ft.Quits q)
      (hrel : ft.release = some true) :
      Next ft (.endTx ct waited)
        { ft.giveStatus ft.attempts defaultVerifyStatusEnd with quit := q, isEnded := true }
  | endWaited {ct waited q ft'} (hend : ft.isEnded = false) (hq : ft.Quits q)
      (hrel : ft.release = some false)
      (hl : CameraTx.leave (c := c) { ft with quit := q } waited = some ft') :
      Next ft (.endTx ct waited)
        { ft'.giveStatus ft'.attempts defaultVerifyStatusEnd with isEnded := true }
  | setLockState {s waited} :
      Next ft (.setLockState s waited) { ft with toBaseTx := ft.notifyLock s }

theorem next_of_step {ft ft' : CameraTx c} {a : CameraAction} (hs : ft.step a = some ft') :
    ft.Next a ft' := by
  cases a with
  | authenticate =>
      obtain ⟨hcan, hs⟩ := Option.ite_none_right_eq_some.mp hs
      obtain ⟨⟨hrunning, hpending⟩, heq⟩ := Option.ite_none_right_eq_some.mp hs
      exact .started hcan hrunning hpending (Option.some.inj heq).symm
  | code code =>
      obtain ⟨n, hn, hs⟩ := Option.bind_eq_some_iff.mp hs
      split_ifs at hs
      · cases hs
        exact .restarted hn
      · cases hs
        exact .passedOn hn
  | leave l => exact .leave hs
  | give =>
      obtain ⟨g, hg, rfl⟩ := Option.map_eq_some_iff.mp hs
      exact .give hg
  | endTx ct waited =>
      simp only [step, CameraTx.endTx] at hs
      by_cases hend : ft.isEnded = true
      · rw [if_pos hend] at hs
        cases hs
        exact .wasEnded hend
      · rw [if_neg hend] at hs
        have hend : ft.isEnded = false := by simpa using hend
        obtain ⟨ft₂, h₂, rfl⟩ := Option.map_eq_some_iff.mp hs
        obtain ⟨ft₁, h₁, hwait⟩ := Option.bind_eq_some_iff.mp h₂
        obtain ⟨q, hq, rfl⟩ : ∃ q, ft.Quits q ∧ ft₁ = { ft with quit := q } := by
          split_ifs at h₁ with hdev hquit
          · cases h₁
            exact ⟨_, .closed hdev hquit, rfl⟩
          · cases h₁
            exact ⟨_, .idle hdev, rfl⟩
        split at hwait
        · next hrel =>
            cases hwait
            exact .endReleased hend hq hrel
        · next hrel => exact .endWaited hend hq hrel hwait
        · cases hwait
  | setLockState s waited =>
      cases (ft.setLockState_eq s waited).symm.trans hs
      exact .setLockState

end CameraTx

/-! ## Keys -/

namespace UKeyTx

/-- The ways in which a step of a key transaction goes: a start, the answer of `StartVerify`, the
two signals of the service while they are listened to, a PIN, an `end` or a lock notification. -/
inductive Next (u : UKeyTx) : UKeyAction → UKeyTx → Prop
  | authenticate {constructed} (hcan : u.canStart = true) :
      Next u (.authenticate constructed) (u.authenticate constructed)
  | startVerify {n err} (hn : n ∈ u.starting) :
      Next u (.startVerify n err) ({ u with starting := u.starting.erase n }.called n err)
  | verifyResult {id ok} (hon : u.handlers = true) :
      Next u (.verifyResult id ok) (u.verifyResult id ok)
  | state {id s} (hon : u.handlers = true) : Next u (.state id s) (u.state id s)
  | setPassword {err} : Next u (.setPassword err) (u.called u.attempts err)
  | endTx {ct} : Next u (.endTx ct) (u.endTx ct)
  | setLockState {s} : Next u (.setLockState s) { u with toBaseTx := u.notifyLock s }

theorem next_of_step {u u' : UKeyTx} {a : UKeyAction} (hs : u.step a = some u') :
    u.Next a u' := by
  cases a with
  | authenticate constructed =>
      obtain ⟨hcan, heq⟩ := Option.ite_none_right_eq_some.mp hs
      cases heq
      exact .authenticate hcan
  | startVerify n err =>
      obtain ⟨hn, heq⟩ := Option.ite_none_right_eq_some.mp hs
      cases heq
      exact .startVerify hn
  | verifyResult id ok =>
      obtain ⟨hon, heq⟩ := Option.ite_none_right_eq_some.mp hs
      cases heq
      exact .verifyResult hon
  | state id s =>
      obtain ⟨hon, heq⟩ := Option.ite_none_right_eq_some.mp hs
      cases heq
      exact .state hon
  | setPassword err =>
      cases hs
      exact .setPassword
  | endTx ct =>
      cases hs
      exact .endTx
  | setLockState s =>
      cases (u.setLockState_eq s).symm.trans hs
      exact .setLockState

end UKeyTx

/-! ## Custom transactions -/

namespace CustomTx

/-- The ways in which a step of a custom transaction goes: a token is taken by the goroutine of the
present attempt, or dropped where there is none. -/
inductive Next (tx : CustomTx) : CustomAction → CustomTx → Prop
  | authenticate (hcan : tx.canStart = true) : Next tx .authenticate tx.authenticate
  | dropped (hnone : tx.isEnded = true ∨ tx.attempts ∉ tx.running) : Next tx .setPassword tx
  | taken (hend : tx.isEnded = false) (hrunning : tx.attempts ∈ tx.running) :
      Next tx .setPassword ({ tx with running := tx.running.erase tx.attempts }.giveStatus
        tx.attempts (newVerifyStatus .success true ""))
  | wasEnded {ct} (hend : tx.isEnded = true) : Next tx (.endTx ct) tx
  | ended {ct} (hend : tx.isEnded = false) (hopen : tx.chanPasswd = some false) :
      Next tx (.endTx ct) { tx.giveStatus tx.attempts defaultVerifyStatusEnd with
        isEnded := true, chanPasswd := some true, running := tx.running.erase tx.attempts }
  | setLockState {s} : Next tx (.setLockState s) { tx with toBaseTx := tx.notifyLock s }

theorem next_of_step {tx tx' : CustomTx} {a : CustomAction} (hs : tx.step a = some tx') :
    tx.Next a tx' := by
  cases a with
  | authenticate =>
      obtain ⟨hcan, heq⟩ := Option.ite_none_right_eq_some.mp hs
      cases heq
      exact .authenticate hcan
  | setPassword =>
      simp only [step, CustomTx.setPassword, Option.some.injEq] at hs
      subst hs
      split_ifs with hend hrunning
      · exact .dropped (.inl hend)
      · exact .taken (by simpa using hend) hrunning
      · exact .dropped (.inr hrunning)
  | endTx ct =>
      simp only [step, CustomTx.endTx] at hs
      split_ifs at hs with hend hopen
      · cases hs
        exact .wasEnded hend
      · cases hs
        exact .ended (by simpa using hend) hopen
  | setLockState s =>
      cases (tx.setLockState_eq s).symm.trans hs
      exact .setLockState

end CustomTx

/-! ## The part that all transactions share -/

namespace BaseTx

/-- What a call or a goroutine leaves of the shared part: no attempt is taken back, and the lock is
the same. -/
structure Extends (bt bt' : BaseTx) : Prop where
  attempts : bt.attempts ≤ bt'.attempts
  lockState : bt'.lockState = bt.lockState

theorem Extends.refl (bt : BaseTx) : bt.Extends bt := ⟨le_rfl, rfl⟩

/-- Giving a status. -/
theorem Extends.giveStatus {bt bt' : BaseTx} (h : bt.Extends bt') (n : ℕ) (s : VerifyStatus) :
    bt.Extends (bt'.giveStatus n s) :=
  ⟨h.attempts, h.lockState⟩

/-- Starting an attempt. -/
theorem extends_start (bt : BaseTx) : bt.Extends { bt with attempts := bt.attempts + 1 } :=
  ⟨Nat.le_succ _, rfl⟩

end BaseTx

theorem PasswordTx.extends_sendStatus {bt : BaseTx} {pt : PasswordTx}
    (h : bt.Extends pt.toBaseTx) (a : PamAuth) (s : VerifyStatus) :
    bt.Extends (pt.sendStatus a s).toBaseTx := by
  unfold PasswordTx.sendStatus
  split_ifs
  · exact h.giveStatus a.attempt s
  · exact h

theorem PasswordTx.Next.base {pt pt' : PasswordTx} {a : PasswordAction} (h : pt.Next a pt') :
    (∃ s, a = .setLockState s ∧ pt'.toBaseTx = pt.notifyLock s) ∨
      pt.toBaseTx.Extends pt'.toBaseTx := by
  cases h with
  | @authenticate pamStarts hcan =>
      right
      cases pamStarts with
      | false => exact .refl _
      | true => exact PasswordTx.extends_sendStatus pt.extends_start _ _
  | setPassword => exact .inr (.refl _)
  | respondPAM => exact .inr (PasswordTx.extends_sendStatus (.refl _) _ _)
  | doAuth =>
      right
      apply PasswordTx.extends_sendStatus
      exact .refl _
  | endTx => exact .inr ((BaseTx.Extends.refl _).giveStatus _ _)
  | setLockState => exact .inl ⟨_, rfl, rfl⟩

theorem FingerprintTx.Next.base {ft ft' : FingerprintTx} {a : FingerprintAction}
    (h : ft.Next a ft') :
    (∃ s waited, a = .setLockState s waited ∧ ft'.toBaseTx = ft.notifyLock s) ∨
      ft.toBaseTx.Extends ft'.toBaseTx := by
  have hverify : ∀ {ft ft' : FingerprintTx} {n : ℕ} {d : DoVerify},
      ft.verify n d = some ft' → ft.toBaseTx.Extends ft'.toBaseTx := by
    intro ft ft' n d hv
    obtain ⟨-, rfl⟩ := FingerprintTx.verify_eq_some.mp hv
    exact .refl _
  cases h with
  | notClaimed => exact .inr (.refl _)
  | started => exact .inr ((ft.extends_start.giveStatus _ _).giveStatus _ _)
  | verify hv => exact .inr (hverify hv)
  | give => exact .inr ((BaseTx.Extends.refl _).giveStatus _ _)
  | wasEnded => exact .inr (.refl _)
  | endIdle => exact .inr ((BaseTx.Extends.refl _).giveStatus _ _)
  | endReleased => exact .inr ((BaseTx.Extends.refl _).giveStatus _ _)
  | endWaited _ _ _ _ hv => exact .inr ((hverify hv).giveStatus _ _)
  | setLockState => exact .inl ⟨_, _, rfl, rfl⟩

/-- What a goroutine that leaves `verify` does to the shared part. -/
theorem CameraTx.extends_leave {c : CameraType} {ft ft' : CameraTx c} {l : CameraLeave}
    (hl : ft.leave l = some ft') : ft.toBaseTx.Extends ft'.toBaseTx := by
  obtain ⟨n, -, -, -, -, -, -, hbase⟩ := CameraTx.leave_spec hl
  rw [hbase]
  cases l.gives c with
  | none => exact .refl _
  | some s => exact (BaseTx.Extends.refl _).giveStatus n s

theorem CameraTx.Next.base {c : CameraType} {ft ft' : CameraTx c} {a : CameraAction}
    (h : ft.Next a ft') :
    (∃ s waited, a = .setLockState s waited ∧ ft'.toBaseTx = ft.notifyLock s) ∨
      ft.toBaseTx.Extends ft'.toBaseTx := by
  cases h with
  | started _ _ _ hft =>
      right
      rw [hft]
      exact (ft.extends_start.giveStatus _ _).giveStatus _ _
  | restarted => exact .inr (.refl _)
  | passedOn => exact .inr ((BaseTx.Extends.refl _).giveStatus _ _)
  | leave hl => exact .inr (CameraTx.extends_leave hl)
  | give => exact .inr ((BaseTx.Extends.refl _).giveStatus _ _)
  | wasEnded => exact .inr (.refl _)
  | endReleased => exact .inr ((BaseTx.Extends.refl _).giveStatus _ _)
  | endWaited _ _ _ hl => exact .inr ((CameraTx.extends_leave hl).giveStatus _ _)
  | setLockState => exact .inl ⟨_, _, rfl, rfl⟩

/-- Constructing a verification starts nothing. -/
theorem UKeyTx.construct_same (u : UKeyTx) (constructed : Except String String) :
    (u.construct constructed).1.toBaseTx = u.toBaseTx ∧
      (u.construct constructed).1.failed = u.failed := by
  unfold UKeyTx.construct
  split_ifs
  · exact ⟨rfl, rfl⟩
  · cases constructed with
    | error err => exact ⟨rfl, rfl⟩
    | ok id => dsimp only; split_ifs <;> exact ⟨rfl, rfl⟩

theorem UKeyTx.extends_called (u : UKeyTx) (n : ℕ) (err : Option String) :
    u.toBaseTx.Extends (u.called n err).toBaseTx := by
  cases err with
  | none => exact .refl _
  | some err => exact (BaseTx.Extends.refl _).giveStatus n _

theorem UKeyTx.Next.base {u u' : UKeyTx} {a : UKeyAction} (h : u.Next a u') :
    (∃ s, a = .setLockState s ∧ u'.toBaseTx = u.notifyLock s) ∨
      u.toBaseTx.Extends u'.toBaseTx := by
  cases h with
  | @authenticate constructed =>
      right
      unfold UKeyTx.authenticate
      dsimp only
      rw [← (u.construct_same constructed).1]
      split_ifs
      · exact ⟨Nat.le_succ _, rfl⟩
      · exact .refl _
  | @startVerify n err =>
      have hcalled := UKeyTx.extends_called { u with starting := u.starting.erase n } n err
      exact .inr hcalled
  | @verifyResult id ok =>
      right
      unfold UKeyTx.verifyResult
      split_ifs <;> exact ⟨le_rfl, rfl⟩
  | @state id s =>
      right
      unfold UKeyTx.state
      simp only [UKeyTx.endTx_closeVerify]
      split_ifs <;> exact ⟨le_rfl, rfl⟩
  | setPassword => exact .inr (u.extends_called _ _)
  | @endTx ct =>
      right
      unfold UKeyTx.endTx
      dsimp only
      split_ifs <;> exact ⟨le_rfl, rfl⟩
  | setLockState => exact .inl ⟨_, rfl, rfl⟩

theorem CustomTx.Next.base {tx tx' : CustomTx} {a : CustomAction} (h : tx.Next a tx') :
    (∃ s, a = .setLockState s ∧ tx'.toBaseTx = tx.notifyLock s) ∨
      tx.toBaseTx.Extends tx'.toBaseTx := by
  cases h with
  | authenticate => exact .inr (tx.extends_start.giveStatus _ _)
  | dropped => exact .inr (.refl _)
  | taken => exact .inr ((BaseTx.Extends.refl _).giveStatus _ _)
  | wasEnded => exact .inr (.refl _)
  | ended => exact .inr ((BaseTx.Extends.refl _).giveStatus _ _)
  | setLockState => exact .inl ⟨_, rfl, rfl⟩

/-- The call that starts an attempt. -/
def TxAction.isStart : TxAction → Bool
  | .password (.authenticate _) | .fingerprint (.authenticate _) | .camera .authenticate
  | .uKey (.authenticate _) | .custom .authenticate => true
  | _ => false

/-- The call that notes a lock. -/
def TxAction.isLock : TxAction → Bool
  | .password (.setLockState _) | .fingerprint (.setLockState _ _)
  | .camera (.setLockState _ _) | .uKey (.setLockState _) | .custom (.setLockState _) => true
  | _ => false

/-- Noting a lock starts nothing. -/
theorem TxAction.isStart_setLockState (kind : TxKind) (s : LockState) (finger : DoVerify)
    (camera : CameraLeave) : (TxAction.setLockState kind s finger camera).isStart = false := by
  cases kind <;> rfl

namespace Tx

/-- A call is one of the kind of the transaction, and goes in one of the ways of that kind. -/
inductive Calls : Tx → TxAction → Tx → Prop
  | password {tx a tx'} (h : PasswordTx.Next tx a tx') :
      Calls (.password tx) (.password a) (.password tx')
  | fingerprint {tx a tx'} (h : FingerprintTx.Next tx a tx') :
      Calls (.fingerprint tx) (.fingerprint a) (.fingerprint tx')
  | face {tx a tx'} (h : CameraTx.Next tx a tx') : Calls (.face tx) (.camera a) (.face tx')
  | iris {tx a tx'} (h : CameraTx.Next tx a tx') : Calls (.iris tx) (.camera a) (.iris tx')
  | uKey {tx a tx'} (h : UKeyTx.Next tx a tx') : Calls (.uKey tx) (.uKey a) (.uKey tx')
  | custom {tx a tx'} (h : CustomTx.Next tx a tx') : Calls (.custom tx) (.custom a) (.custom tx')

theorem calls_of_call {tx tx' : Tx} {a : TxAction} (hs : tx.call a = some tx') :
    tx.Calls a tx' := by
  cases tx <;> cases a <;> simp only [call, Option.map_eq_some_iff, reduceCtorEq] at hs <;>
    obtain ⟨t, ht, rfl⟩ := hs
  · exact .password (PasswordTx.next_of_step ht)
  · exact .fingerprint (FingerprintTx.next_of_step ht)
  · exact .face (CameraTx.next_of_step ht)
  · exact .iris (CameraTx.next_of_step ht)
  · exact .uKey (UKeyTx.next_of_step ht)
  · exact .custom (CustomTx.next_of_step ht)

/-- A step is a call of a transaction that has sent nothing yet. -/
theorem calls_of_step {tx tx' : Tx} {a : TxAction} {sent : List Given}
    (hs : tx.step a = some (tx', sent)) :
    tx.clearSent.Calls a tx' ∧ sent = tx'.base.sent := by
  obtain ⟨ht, rfl⟩ := observed_eq_some.mp hs
  exact ⟨calls_of_call ht, rfl⟩

/-- What a call does to the shared part. -/
theorem Calls.base {tx tx' : Tx} {a : TxAction} (h : tx.Calls a tx') :
    (a.isLock = true ∧ ∃ s, tx'.base = tx.base.notifyLock s) ∨ tx.base.Extends tx'.base := by
  cases h with
  | password h =>
      rcases h.base with ⟨s, rfl, hs⟩ | hext
      · exact .inl ⟨rfl, s, hs⟩
      · exact .inr hext
  | fingerprint h =>
      rcases h.base with ⟨s, waited, rfl, hs⟩ | hext
      · exact .inl ⟨rfl, s, hs⟩
      · exact .inr hext
  | face h =>
      rcases h.base with ⟨s, waited, rfl, hs⟩ | hext
      · exact .inl ⟨rfl, s, hs⟩
      · exact .inr hext
  | iris h =>
      rcases h.base with ⟨s, waited, rfl, hs⟩ | hext
      · exact .inl ⟨rfl, s, hs⟩
      · exact .inr hext
  | uKey h =>
      rcases h.base with ⟨s, rfl, hs⟩ | hext
      · exact .inl ⟨rfl, s, hs⟩
      · exact .inr hext
  | custom h =>
      rcases h.base with ⟨s, rfl, hs⟩ | hext
      · exact .inl ⟨rfl, s, hs⟩
      · exact .inr hext

/-- No action takes an attempt back. -/
theorem attempts_step {tx tx' : Tx} {a : TxAction} {sent : List Given}
    (hs : tx.step a = some (tx', sent)) : tx.base.attempts ≤ tx'.base.attempts := by
  have hclear : tx.clearSent.base.attempts = tx.base.attempts := by
    simp [clearSent]
  rw [← hclear]
  rcases (calls_of_step hs).1.base with ⟨-, s, hlock⟩ | hext
  · rw [hlock, BaseTx.notifyLock_attempts]
  · exact hext.attempts

/-- **No other call than `setLockState` changes the lock.** -/
theorem step_lockState {tx tx' : Tx} {a : TxAction} {sent : List Given}
    (hs : tx.step a = some (tx', sent)) (ha : a.isLock = false) :
    tx'.base.lockState = tx.base.lockState := by
  have hclear : tx.clearSent.base.lockState = tx.base.lockState := by
    simp [clearSent]
  rw [← hclear]
  rcases (calls_of_step hs).1.base with ⟨hlock, -⟩ | hext
  · cases ha.symm.trans hlock
  · exact hext.lockState

end Tx

end LingmoAuthenticate.Session
