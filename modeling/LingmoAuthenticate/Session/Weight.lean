import LingmoAuthenticate.Session.Inversion

/-!
# The failures that an attempt can still give

A status of failure or of an exception has a failure charged to the user. The weight of an attempt
bounds how many of them it can still give: one while it has not been started, one while a goroutine
of it can still report, and one for each that is on its way.

* `Tx.weight_step`: no action of a transaction adds to the weight of an attempt, where the signals
  of a key are safe (`Tx.FailSafe`).
-/

namespace LingmoAuthenticate.Session

open Lib AuthCommon

/-! ## Failures given -/

/-- A status that has a failure charged. Source: `session/manager.go`, `Manager.updateLimits`. -/
def VerifyStatus.isFail (s : VerifyStatus) : Bool := s.s = .failure || s.s = .exception

/-- A failure given for the attempt `n`. -/
def Given.failsFor (n : ℕ) (g : Given) : Bool := g.attempt = n && g.status.isFail

/-- How many failures are sent for the attempt `n`. -/
def failsIn (n : ℕ) (sent : List Given) : ℕ := sent.countP (Given.failsFor n)

/-- One for an attempt that has not been started. -/
def BaseTx.unstarted (bt : BaseTx) (n : ℕ) : ℕ := if bt.attempts < n then 1 else 0

/-- How many failures a status counts for the attempt `n`. -/
def failOf (n m : ℕ) (s : VerifyStatus) : ℕ := if m = n ∧ s.isFail = true then 1 else 0

/-- The failures sent and the attempts that were not started. -/
def BaseTx.weight (bt : BaseTx) (n : ℕ) : ℕ := failsIn n bt.sent + bt.unstarted n

theorem ite_failsFor (n : ℕ) (g : Given) :
    (if g.failsFor n then 1 else 0) = failOf n g.attempt g.status := by
  simp only [Given.failsFor, failOf, Bool.and_eq_true, decide_eq_true_eq]

theorem failsIn_cons (n : ℕ) (g : Given) (sent : List Given) :
    failsIn n (g :: sent) = failsIn n sent + failOf n g.attempt g.status := by
  rw [failsIn, List.countP_cons, ite_failsFor, failsIn]

theorem failsIn_append (n : ℕ) (sent sent' : List Given) :
    failsIn n (sent ++ sent') = failsIn n sent + failsIn n sent' := List.countP_append

theorem failOf_eq_zero {n m : ℕ} {s : VerifyStatus} (h : s.isFail = false) :
    failOf n m s = 0 := by
  simp [failOf, h]

theorem failOf_le {n m : ℕ} (s : VerifyStatus) : failOf n m s ≤ if m = n then 1 else 0 := by
  unfold failOf
  split_ifs <;> omega

/-- Giving a status adds it to what was sent. -/
@[simp] theorem BaseTx.weight_giveStatus (bt : BaseTx) (n m : ℕ) (s : VerifyStatus) :
    (bt.giveStatus m s).weight n = bt.weight n + failOf n m s := by
  have hsent : failsIn n (bt.sent ++ [⟨m, s⟩]) = failsIn n bt.sent + failOf n m s := by
    rw [failsIn_append, failsIn_cons]
    exact congrArg _ (Nat.zero_add _)
  have hstart : (bt.giveStatus m s).unstarted n = bt.unstarted n := rfl
  rw [weight, giveStatus_sent, hsent, hstart, weight]
  omega

/-- Starting an attempt takes what was reserved for it. -/
theorem BaseTx.weight_start (bt : BaseTx) (n : ℕ) :
    BaseTx.weight { bt with attempts := bt.attempts + 1 } n +
      (if bt.attempts + 1 = n then 1 else 0) = bt.weight n := by
  simp only [weight, unstarted]
  split_ifs <;> omega

@[simp] theorem isFail_started : defaultVerifyStatusStarted.isFail = false := rfl

@[simp] theorem isFail_end : defaultVerifyStatusEnd.isFail = false := rfl

@[simp] theorem isFail_newVerifyStatus (s : StatusCode) (b : Bool) (msg : String) :
    (newVerifyStatus s b msg).isFail = (s = .failure || s = .exception : Bool) := by
  unfold newVerifyStatus VerifyStatus.isFail
  split_ifs <;> rfl

/-- Telling of a lock gives no failure. -/
@[simp] theorem BaseTx.weight_notifyLock (bt : BaseTx) (s : LockState) (n : ℕ) :
    (bt.notifyLock s).weight n = bt.weight n := by
  have hset : ∀ b : BaseTx, BaseTx.weight { b with lockState := s } n = b.weight n := fun _ => rfl
  unfold notifyLock
  rw [hset]
  split_ifs
  · rw [weight_giveStatus, failOf_eq_zero, add_zero]
    cases s <;> rfl
  · rfl

/-! ## Each kind of transaction -/

/-- How many failures the goroutines of an attempt can still give. -/
def PasswordTx.live (pt : PasswordTx) (n : ℕ) : ℕ := pt.running.countP fun a => a.attempt = n

def FingerprintTx.live (ft : FingerprintTx) (n : ℕ) : ℕ :=
  ft.running.count n + failsIn n ft.pending

def CameraTx.live {c : CameraType} (ft : CameraTx c) (n : ℕ) : ℕ :=
  ft.running.toList.count n + failsIn n ft.pending.toList

/-- A key reports by signals, of which one may fail. -/
def UKeyTx.live (u : UKeyTx) (n : ℕ) : ℕ :=
  if n = u.attempts ∧ u.attempts ≠ 0 ∧ u.failed = false then 1 else 0

/-- Taking an element out of a list takes its part out of the count. -/
theorem countP_erase_add {α : Type*} [DecidableEq α] {a : α} {l : List α} (h : a ∈ l)
    (p : α → Bool) : (l.erase a).countP p + (if p a then 1 else 0) = l.countP p := by
  rw [(List.perm_cons_erase h).countP_eq p, List.countP_cons]

theorem PasswordTx.weight_sendStatus (pt : PasswordTx) (a : PamAuth) (s : VerifyStatus) (n : ℕ) :
    (pt.sendStatus a s).weight n + (pt.sendStatus a s).live n ≤
      pt.weight n + failOf n a.attempt s + pt.live n := by
  unfold PasswordTx.sendStatus
  split_ifs
  · simp only [giveStatus, BaseTx.weight_giveStatus, live]
    exact le_rfl
  · omega

theorem PasswordTx.weight_step {pt pt' : PasswordTx} {a : PasswordAction}
    (hs : pt.Next a pt') (n : ℕ) : pt'.weight n + pt'.live n ≤ pt.weight n + pt.live n := by
  cases hs with
  | @authenticate pamStarts =>
      cases pamStarts with
      | false => exact le_rfl
      | true =>
          unfold PasswordTx.authenticate
          refine (PasswordTx.weight_sendStatus _ _ _ n).trans ?_
          have hstart := pt.toBaseTx.weight_start n
          rw [failOf_eq_zero isFail_started]
          simp only [live, List.countP_cons, decide_eq_true_eq]
          omega
  | setPassword => exact le_rfl
  | @respondPAM a =>
      refine (PasswordTx.weight_sendStatus pt a _ n).trans ?_
      rw [failOf_eq_zero (by simp)]
      omega
  | @doAuth a ok ha =>
      refine (PasswordTx.weight_sendStatus _ a _ n).trans ?_
      have herase := countP_erase_add ha fun a => a.attempt = n
      have hfail := failOf_le (n := n) (m := a.attempt)
        (newVerifyStatus (if ok then .success else .failure) true "")
      simp only [decide_eq_true_eq] at herase
      simp only [live]
      omega
  | endTx =>
      simp only [endTx, giveStatus, BaseTx.weight_giveStatus, failOf_eq_zero isFail_end, live]
      exact le_rfl
  | setLockState =>
      simp only [BaseTx.weight_notifyLock, live]
      exact le_rfl

/-- A goroutine that leaves `verify` trades its part of the potential for the failure it may have to
give. -/
theorem FingerprintTx.weight_verify {ft ft' : FingerprintTx} {m : ℕ} {d : DoVerify}
    (hv : ft.verify m d = some ft') (n : ℕ) :
    ft'.weight n + ft'.live n ≤ ft.weight n + ft.live n := by
  obtain ⟨⟨hm, -⟩, rfl⟩ := FingerprintTx.verify_eq_some.mp hv
  have herase := countP_erase_add hm (· == n)
  simp only [live, List.count, beq_iff_eq] at herase ⊢
  rcases d.result with _ | s
  · dsimp only
    omega
  · have hle := failOf_le (n := n) (m := m) s
    simp only [failsIn_cons]
    omega

theorem FingerprintTx.weight_step {ft ft' : FingerprintTx} {a : FingerprintAction}
    (hs : ft.Next a ft') (n : ℕ) : ft'.weight n + ft'.live n ≤ ft.weight n + ft.live n := by
  cases hs with
  | notClaimed => exact le_rfl
  | started =>
      have hstart := ft.toBaseTx.weight_start n
      simp only [FingerprintTx.authenticate, giveStatus, BaseTx.weight_giveStatus, live,
        List.count_cons, beq_iff_eq]
      rw [failOf_eq_zero isFail_started, failOf_eq_zero (by simp)]
      omega
  | verify hv => exact FingerprintTx.weight_verify hv n
  | @give g hg =>
      have herase := countP_erase_add hg (Given.failsFor n)
      rw [ite_failsFor] at herase
      simp only [giveStatus, BaseTx.weight_giveStatus, live, failsIn]
      omega
  | wasEnded => exact le_rfl
  | endIdle =>
      simp only [giveStatus, BaseTx.weight_giveStatus, failOf_eq_zero isFail_end]
      exact le_rfl
  | endReleased =>
      simp only [giveStatus, BaseTx.weight_giveStatus, failOf_eq_zero isFail_end]
      exact le_rfl
  | endWaited _ _ _ _ hv =>
      have hverify := FingerprintTx.weight_verify hv n
      simp only [giveStatus, BaseTx.weight_giveStatus, failOf_eq_zero isFail_end]
      exact hverify
  | setLockState =>
      simp only [BaseTx.weight_notifyLock, live]
      exact le_rfl

/-- A goroutine that leaves `verify` trades its part of the potential for the failure it may have
given. -/
theorem CameraTx.weight_leave {c : CameraType} {ft ft' : CameraTx c} {l : CameraLeave}
    (hl : ft.leave l = some ft') (n : ℕ) :
    ft'.weight n + ft'.live n ≤ ft.weight n + ft.live n := by
  obtain ⟨m, hm, hrun, -, -, -, hpend, hbase⟩ := CameraTx.leave_spec hl
  have hresult : failsIn n (l.result.map (Given.mk m)).toList = 0 := by
    rcases hr : l.result with _ | s
    · rfl
    · simp [failsIn, Given.failsFor, VerifyStatus.isFail, CameraLeave.result_error hr]
  have hgives : ft'.weight n ≤ ft.weight n + if m = n then 1 else 0 := by
    rw [hbase]
    rcases l.gives c with _ | s
    · exact Nat.le_add_right _ _
    · rw [Option.elim_some, BaseTx.weight_giveStatus]
      exact Nat.add_le_add_left (failOf_le s) _
  simp only [live, hrun, hpend, hm, hresult, Option.toList_none, Option.toList_some,
    List.count_nil, List.count_singleton, beq_iff_eq]
  omega

theorem CameraTx.weight_step {c : CameraType} {ft ft' : CameraTx c} {a : CameraAction}
    (hs : ft.Next a ft') (n : ℕ) : ft'.weight n + ft'.live n ≤ ft.weight n + ft.live n := by
  cases hs with
  | started _ _ _ hft =>
      subst hft
      have hstart := ft.toBaseTx.weight_start n
      simp only [giveStatus, BaseTx.weight_giveStatus, live, Option.toList_some,
        List.count_singleton, beq_iff_eq]
      rw [failOf_eq_zero isFail_started, failOf_eq_zero (by simp)]
      omega
  | restarted => exact le_rfl
  | passedOn =>
      simp only [giveStatus, BaseTx.weight_giveStatus, live]
      rw [failOf_eq_zero (by simp)]
      exact le_rfl
  | leave hl => exact CameraTx.weight_leave hl n
  | give hg =>
      simp only [giveStatus, BaseTx.weight_giveStatus, live, hg, Option.toList_none,
        Option.toList_some, failsIn_cons]
      omega
  | wasEnded => exact le_rfl
  | endReleased =>
      simp only [giveStatus, BaseTx.weight_giveStatus, failOf_eq_zero isFail_end]
      exact le_rfl
  | endWaited _ _ _ hl =>
      have hleave := CameraTx.weight_leave hl n
      simp only [giveStatus, BaseTx.weight_giveStatus, failOf_eq_zero isFail_end]
      exact hleave
  | setLockState =>
      simp only [BaseTx.weight_notifyLock, live]
      exact le_rfl

/-- A signal that reports a failure finds an attempt that has not failed, and an unplugging one that
is still running. -/
def UKeyTx.FailSafe (u : UKeyTx) : UKeyAction → Prop
  | .verifyResult id ok =>
      ok = false → id = u.verificationId → u.attempts ≠ 0 ∧ u.failed = false
  | .state id s =>
      s = .deviceNotExist → u.verificationId = id →
        u.attempts ≠ 0 ∧ u.failed = false ∧ u.settled = false
  | _ => True

/-- A signal that is reported as a failure uses up the part of its attempt. -/
theorem UKeyTx.live_eq_one {u : UKeyTx} (h : u.attempts ≠ 0 ∧ u.failed = false) (n : ℕ) :
    u.live n = if u.attempts = n then 1 else 0 := by
  simp only [live, h.1, h.2, ne_eq, not_false_eq_true, and_true, eq_comm]

/-- A call that failed gives an error, which has no failure charged. -/
theorem UKeyTx.weight_called (u : UKeyTx) (m : ℕ) (err : Option String) (n : ℕ) :
    (u.called m err).weight n + (u.called m err).live n = u.weight n + u.live n := by
  cases err with
  | none => rfl
  | some err =>
      simp only [called, giveStatus, BaseTx.weight_giveStatus, live, BaseTx.giveStatus_attempts]
      rw [failOf_eq_zero (by simp)]
      rfl

theorem UKeyTx.weight_step {u u' : UKeyTx} {a : UKeyAction} (hsafe : u.FailSafe a)
    (hs : u.Next a u') (n : ℕ) : u'.weight n + u'.live n ≤ u.weight n + u.live n := by
  cases hs with
  | @authenticate constructed =>
      obtain ⟨hbase, hfailed⟩ := u.construct_same constructed
      unfold UKeyTx.authenticate
      dsimp only
      split_ifs
      · have hstart := u.toBaseTx.weight_start n
        simp only [giveStatus, BaseTx.weight_giveStatus, failOf_eq_zero isFail_started, live, hbase,
          BaseTx.giveStatus_attempts]
        split_ifs at hstart ⊢ <;> omega
      · simp only [live, hbase, hfailed]
        exact le_rfl
  | @startVerify m err =>
      have hcalled := UKeyTx.weight_called { u with starting := u.starting.erase m } m err n
      exact hcalled.le
  | @verifyResult id ok =>
      unfold UKeyTx.verifyResult
      split_ifs with hid hok
      · -- a success
        simp only [giveStatus, BaseTx.weight_giveStatus, live, BaseTx.giveStatus_attempts, hok]
        rw [failOf_eq_zero (by simp)]
        simp
      · have hok : ok = false := by simpa using hok
        have hle := failOf_le (n := n) (m := u.attempts) (newVerifyStatus .failure true "")
        rw [u.live_eq_one (hsafe hok hid)]
        simp only [giveStatus, BaseTx.weight_giveStatus, live, BaseTx.giveStatus_attempts, hok,
          Bool.not_false, Bool.or_true, Bool.true_eq_false, and_false, if_false]
        omega
      · exact le_rfl
  | @state id s =>
      unfold UKeyTx.state
      by_cases hid : u.verificationId = id
      · rw [if_pos hid]
        by_cases hne : s = .deviceNotExist
        · -- an exception, paid by the part of the attempt, and the end of the attempt
          subst hne
          obtain ⟨hstarted, hfailed, -⟩ := hsafe rfl hid
          have hle := failOf_le (n := n) (m := u.attempts)
            (newVerifyStatus .exception false UKeyState.deviceNotExist.text)
          rw [u.live_eq_one ⟨hstarted, hfailed⟩]
          simp only [if_true, or_true, endTx_closeVerify, giveStatus, BaseTx.weight_giveStatus,
            BaseTx.giveStatus_attempts, failOf_eq_zero isFail_end, live, stateToStatusCode,
            Bool.true_eq_false, and_false, if_false]
          omega
        · -- no failure is given
          have hnofail : ∀ msg,
              (newVerifyStatus (stateToStatusCode s u.deviceLost) false msg).isFail = false := by
            intro msg
            cases s <;> cases u.deviceLost <;>
              first | exact absurd rfl hne | simp [stateToStatusCode]
          simp only [if_neg hne, endTx_closeVerify]
          split_ifs <;>
            simp only [giveStatus, BaseTx.weight_giveStatus, BaseTx.giveStatus_attempts,
              failOf_eq_zero isFail_end, failOf_eq_zero (hnofail _), live] <;>
            exact le_rfl
      · rw [if_neg hid]
  | @setPassword err => exact (u.weight_called u.attempts err n).le
  | endTx =>
      unfold UKeyTx.endTx
      dsimp only
      split_ifs <;>
        simp only [giveStatus, BaseTx.weight_giveStatus, failOf_eq_zero isFail_end, live] <;>
        exact le_rfl
  | setLockState =>
      simp only [BaseTx.weight_notifyLock, live, BaseTx.notifyLock_attempts]
      exact le_rfl

theorem CustomTx.weight_step {tx tx' : CustomTx} {a : CustomAction}
    (hs : tx.Next a tx') (n : ℕ) : tx'.weight n ≤ tx.weight n := by
  cases hs with
  | authenticate =>
      have hstart := tx.toBaseTx.weight_start n
      simp only [CustomTx.authenticate, giveStatus, BaseTx.weight_giveStatus,
        failOf_eq_zero isFail_started]
      omega
  | dropped => exact le_rfl
  | taken =>
      simp only [giveStatus, BaseTx.weight_giveStatus]
      rw [failOf_eq_zero (by simp)]
      exact le_rfl
  | wasEnded => exact le_rfl
  | ended =>
      simp only [giveStatus, BaseTx.weight_giveStatus, failOf_eq_zero isFail_end]
      exact le_rfl
  | setLockState => exact (BaseTx.weight_notifyLock _ _ _).le

/-! ## A transaction of any kind -/

namespace Tx

/-- How many failures an attempt can still give. -/
def live (tx : Tx) (n : ℕ) : ℕ :=
  match tx with
  | .password tx => tx.live n
  | .fingerprint tx => tx.live n
  | .face tx => tx.live n
  | .iris tx => tx.live n
  | .uKey tx => tx.live n
  | .custom _ => 0

/-- The signals of a key are safe; the other kinds have no such signals. -/
def FailSafe : Tx → TxAction → Prop
  | .uKey u, .uKey a => u.FailSafe a
  | _, _ => True

theorem weight_call {tx tx' : Tx} {a : TxAction} (hsafe : tx.FailSafe a)
    (hs : tx.Calls a tx') (n : ℕ) :
    tx'.base.weight n + tx'.live n ≤ tx.base.weight n + tx.live n := by
  cases hs with
  | password hs => exact PasswordTx.weight_step hs n
  | fingerprint hs => exact FingerprintTx.weight_step hs n
  | face hs => exact CameraTx.weight_step hs n
  | iris hs => exact CameraTx.weight_step hs n
  | uKey hs => exact UKeyTx.weight_step hsafe hs n
  | custom hs => exact CustomTx.weight_step hs n

/-- **No action of a transaction adds to what an attempt can give.** -/
theorem weight_step {tx tx' : Tx} {a : TxAction} {sent : List Given} (hsafe : tx.FailSafe a)
    (hs : tx.step a = some (tx', sent)) (n : ℕ) :
    failsIn n sent + tx'.base.unstarted n + tx'.live n ≤ tx.base.unstarted n + tx.live n := by
  obtain ⟨ht, rfl⟩ := calls_of_step hs
  have hclear : tx.clearSent.FailSafe a := by
    cases tx <;> cases a <;> exact hsafe
  have hweight := weight_call hclear ht n
  have hbase : tx.clearSent.base.weight n + tx.clearSent.live n =
      tx.base.unstarted n + tx.live n := by
    cases tx <;> exact congrArg (· + _) (Nat.zero_add _)
  rw [hbase, BaseTx.weight] at hweight
  exact hweight

end Tx

end LingmoAuthenticate.Session
