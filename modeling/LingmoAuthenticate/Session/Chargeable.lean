import Mathlib.Algebra.BigOperators.Group.Finset.Basic
import Mathlib.Algebra.Order.BigOperators.Group.Finset
import Mathlib.Algebra.BigOperators.Intervals
import Mathlib.Order.Interval.Finset.Nat
import LingmoAuthenticate.Session.FailCount

/-!
# How many failures a session can still have charged

* `SessionState.chargeable`: the failures of a factor that the attempts of a session can still be
  charged with.
* `Tx.attempts_le`: only a start adds an attempt, and only one.
* `SessionState.chargeable_step`: what a session has charged is taken from what it can have charged,
  and only a start adds to that.
-/

namespace LingmoAuthenticate.Session

open Lib AuthCommon

/-! ## Only a start adds an attempt -/

theorem PasswordTx.attempts_sendStatus (pt : PasswordTx) (a : PamAuth) (s : VerifyStatus) :
    (pt.sendStatus a s).attempts = pt.attempts := by
  unfold PasswordTx.sendStatus
  split_ifs <;> rfl

theorem PasswordTx.attempts_le {pt pt' : PasswordTx} {a : PasswordAction} (h : pt.Next a pt') :
    pt'.attempts ≤ pt.attempts + if (TxAction.password a).isStart then 1 else 0 := by
  cases h with
  | @authenticate pamStarts =>
      cases pamStarts with
      | false => exact Nat.le_add_right _ _
      | true => exact (PasswordTx.attempts_sendStatus _ _ _).le
  | setPassword => exact le_rfl
  | respondPAM => exact (PasswordTx.attempts_sendStatus _ _ _).le
  | doAuth => exact (PasswordTx.attempts_sendStatus _ _ _).le
  | endTx => exact le_rfl
  | setLockState => exact (BaseTx.notifyLock_attempts _ _).le

theorem FingerprintTx.attempts_le {ft ft' : FingerprintTx} {a : FingerprintAction}
    (h : ft.Next a ft') :
    ft'.attempts ≤ ft.attempts + if (TxAction.fingerprint a).isStart then 1 else 0 := by
  have hverify : ∀ {ft ft' : FingerprintTx} {n : ℕ} {d : DoVerify},
      ft.verify n d = some ft' → ft'.attempts ≤ ft.attempts := by
    intro ft ft' n d hv
    obtain ⟨-, rfl⟩ := FingerprintTx.verify_eq_some.mp hv
    exact le_rfl
  cases h with
  | notClaimed => exact Nat.le_add_right _ _
  | started => exact le_rfl
  | verify hv => exact hverify hv
  | give => exact le_rfl
  | wasEnded => exact le_rfl
  | endIdle => exact le_rfl
  | endReleased => exact le_rfl
  | endWaited _ _ _ _ hv =>
      have hle := hverify hv
      exact hle
  | setLockState => exact (BaseTx.notifyLock_attempts _ _).le

theorem CameraTx.attempts_le {c : CameraType} {ft ft' : CameraTx c} {a : CameraAction}
    (h : ft.Next a ft') :
    ft'.attempts ≤ ft.attempts + if (TxAction.camera a).isStart then 1 else 0 := by
  have hleave : ∀ {ft ft' : CameraTx c} {l : CameraLeave},
      ft.leave l = some ft' → ft'.attempts ≤ ft.attempts := by
    intro ft ft' l hl
    obtain ⟨n, -, -, -, -, -, -, hbase⟩ := CameraTx.leave_spec hl
    rw [hbase]
    cases l.gives c <;> exact le_rfl
  cases h with
  | started _ _ _ hft => exact hft ▸ le_rfl
  | restarted => exact le_rfl
  | passedOn => exact le_rfl
  | leave hl => exact hleave hl
  | give => exact le_rfl
  | wasEnded => exact le_rfl
  | endReleased => exact le_rfl
  | endWaited _ _ _ hl =>
      have hle := hleave hl
      exact hle
  | setLockState => exact (BaseTx.notifyLock_attempts _ _).le

theorem UKeyTx.attempts_called (u : UKeyTx) (n : ℕ) (err : Option String) :
    (u.called n err).attempts = u.attempts := by
  cases err <;> rfl

theorem UKeyTx.attempts_le {u u' : UKeyTx} {a : UKeyAction} (h : u.Next a u') :
    u'.attempts ≤ u.attempts + if (TxAction.uKey a).isStart then 1 else 0 := by
  cases h with
  | @authenticate constructed =>
      unfold UKeyTx.authenticate
      dsimp only
      rw [← (u.construct_same constructed).1, TxAction.isStart, if_pos rfl]
      split_ifs
      · exact le_rfl
      · exact Nat.le_add_right _ _
  | startVerify => exact (UKeyTx.attempts_called _ _ _).le
  | verifyResult =>
      refine le_trans ?_ (Nat.le_add_right _ _)
      unfold UKeyTx.verifyResult
      split_ifs <;> exact le_refl u.attempts
  | state =>
      refine le_trans ?_ (Nat.le_add_right _ _)
      unfold UKeyTx.state
      simp only [UKeyTx.endTx_closeVerify]
      split_ifs <;> exact le_refl u.attempts
  | setPassword => exact (UKeyTx.attempts_called _ _ _).le
  | endTx =>
      refine le_trans ?_ (Nat.le_add_right _ _)
      unfold UKeyTx.endTx
      dsimp only
      split_ifs <;> exact le_refl u.attempts
  | setLockState => exact (BaseTx.notifyLock_attempts _ _).le

theorem CustomTx.attempts_le {tx tx' : CustomTx} {a : CustomAction} (h : tx.Next a tx') :
    tx'.attempts ≤ tx.attempts + if (TxAction.custom a).isStart then 1 else 0 := by
  cases h with
  | authenticate => exact le_rfl
  | dropped => exact le_rfl
  | taken => exact le_rfl
  | wasEnded => exact le_rfl
  | ended => exact le_rfl
  | setLockState => exact (BaseTx.notifyLock_attempts _ _).le

/-- **Only a start adds an attempt**, and only one. -/
theorem Tx.attempts_le {tx tx' : Tx} {a : TxAction} {sent : List Given}
    (hs : tx.step a = some (tx', sent)) :
    tx'.base.attempts ≤ tx.base.attempts + if a.isStart then 1 else 0 := by
  have hclear : tx.clearSent.base.attempts = tx.base.attempts := by
    simp [clearSent]
  have hcalls := (calls_of_step hs).1
  rw [← hclear]
  generalize tx.clearSent = tx at hcalls
  cases hcalls with
  | password h => exact PasswordTx.attempts_le h
  | fingerprint h => exact FingerprintTx.attempts_le h
  | face h => exact CameraTx.attempts_le h
  | iris h => exact CameraTx.attempts_le h
  | uKey h => exact UKeyTx.attempts_le h
  | custom h => exact CustomTx.attempts_le h

/-! ## What a session can still have charged -/

namespace SessionState

/-- The failures that the attempts of a factor can still be charged with. -/
def chargeable (t : AuthType) (s : SessionState) : ℕ :=
  ∑ n ∈ Finset.Icc 1 (s.attempts t), s.potential t n

/-- Every attempt can be charged once, and what is no attempt cannot. -/
def PotentialOne (t : AuthType) (s : SessionState) : Prop :=
  ∀ n, s.potential t n ≤ if 0 < n then 1 else 0

/-- The action starts an attempt of the factor. -/
def SessionAction.starts (t : AuthType) : SessionAction → Bool
  | .tx u a => u = t && a.isStart
  | _ => false

section chargeable

variable {translate : String → String} {t : AuthType} {s s' : SessionState} {a : SessionAction}
  {calls : List (ℕ × ProxyCall)}

theorem potentialOne_start (available : AuthType → Bool) (locks : AuthType → LockState)
    (c : Controller) : (start available locks c).PotentialOne t := by
  intro n
  exact (potential_start available locks c t n).le

theorem PotentialOne.step (ht : authTypeToFlag t ≠ 0) (h : s.PotentialOne t)
    (hsafe : s.FailSafe a) (hs : s.step translate a = some (s', calls)) : s'.PotentialOne t := by
  intro n
  have hpot := potential_step ht n hsafe hs
  have hn := h n
  omega

/-- The attempts of a session after an action. -/
theorem attempts_step (hs : s.step translate a = some (s', calls)) :
    s.attempts t ≤ s'.attempts t ∧
      s'.attempts t ≤ s.attempts t + if SessionAction.starts t a then 1 else 0 := by
  cases next_of_step hs with
  | @tx u a tx tx' sent htx hstep =>
      simp only [attempts, sendStatus_txs, SessionAction.starts]
      by_cases hut : u = t
      · subst hut
        rw [Function.update_self, htx]
        simpa using And.intro (Tx.attempts_step hstep) (Tx.attempts_le hstep)
      · rw [Function.update_of_ne (Ne.symm hut)]
        simp
  | receive => exact ⟨le_rfl, Nat.le_add_right _ _⟩
  | wasEnded => exact ⟨le_rfl, Nat.le_add_right _ _⟩
  | ended => exact ⟨le_rfl, Nat.le_add_right _ _⟩

/-- The charges of a step, attempt by attempt. -/
theorem countP_charges_eq {attempts : Finset ℕ}
    (hcalls : ∀ n, n ∉ attempts → chargesOf t n calls = 0) :
    (calls.countP fun c => c.2.charges t) = ∑ n ∈ attempts, chargesOf t n calls := by
  have hcount : ∀ n, (chargedAttempts t [calls]).count n = chargesOf t n calls := by
    intro n
    rw [count_chargedAttempts, List.map_singleton, List.sum_singleton]
  have hlength : (calls.countP fun c => c.2.charges t) = (chargedAttempts t [calls]).length := by
    simp [chargedAttempts, List.countP_eq_length_filter]
  have hmem : ∀ n ∈ (chargedAttempts t [calls] : Multiset ℕ), n ∈ attempts := by
    intro n hn
    by_contra hnot
    have hpos := List.count_pos_iff.mpr (Multiset.mem_coe.mp hn)
    rw [hcount, hcalls n hnot] at hpos
    exact absurd hpos (lt_irrefl 0)
  rw [hlength, ← Multiset.coe_card, ← Multiset.sum_count_eq_card hmem]
  refine Finset.sum_congr rfl ?_
  intro n _
  rw [Multiset.coe_count, hcount]

/-- **What a session has charged is taken from what it can have charged**, and only a start adds to
that. -/
theorem chargeable_step (ht : authTypeToFlag t ≠ 0) (h : s.PotentialOne t)
    (hsafe : s.FailSafe a) (hs : s.step translate a = some (s', calls)) :
    (calls.countP fun c => c.2.charges t) + s'.chargeable t ≤
      s.chargeable t + if SessionAction.starts t a then 1 else 0 := by
  have hpot := fun n => potential_step ht n hsafe hs
  obtain ⟨hle, hle'⟩ := attempts_step (t := t) hs
  -- what is no attempt after the step is not charged by it
  have hnone : ∀ n, n ∉ Finset.Icc 1 (s'.attempts t) → chargesOf t n calls = 0 := by
    intro n hn
    have hone := h n
    have hstep := hpot n
    have hrest := s'.unstarted_le_potential t n
    rw [Finset.mem_Icc] at hn
    split_ifs at hone hrest <;> omega
  have hnew : ∑ n ∈ Finset.Icc 1 (s'.attempts t), s.potential t n ≤
      s.chargeable t + if SessionAction.starts t a then 1 else 0 := by
    rcases hle.eq_or_lt with heq | hlt
    · rw [← heq]
      exact Nat.le_add_right _ _
    · -- the new attempt can be charged once
      have hsucc : s'.attempts t = s.attempts t + 1 := by
        split_ifs at hle' <;> omega
      have hone := h (s.attempts t + 1)
      rw [if_pos (Nat.succ_pos _)] at hone
      rw [hsucc, Finset.sum_Icc_succ_top (by omega)]
      refine Nat.add_le_add_left (hone.trans ?_) _
      split_ifs at hle' ⊢ <;> omega
  rw [countP_charges_eq hnone, chargeable, ← Finset.sum_add_distrib]
  exact (Finset.sum_le_sum fun n _ => hpot n).trans hnew

end chargeable

end SessionState

end LingmoAuthenticate.Session
