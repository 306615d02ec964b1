import LingmoAuthenticate.Session.Attempts

/-!
# What a step does to a fingerprint attempt

How a step moves the goroutines of a fingerprint transaction, and what it gives that a controller
counts.

* `FingerprintSteps.FingerMoves`, `FingerprintSteps.phases_move`: the moves of the goroutines.
* `FingerprintSteps.frame_move`: the attempts, and the channel `quit`.
* `FingerprintSteps.given_move`: what a step gives.
-/

namespace LingmoAuthenticate.Session

open Lib AuthCommon

namespace FingerprintSteps

variable {s s' : FingerprintSteps} {a : FingerprintStep} {sent : List Given}

/-- A step, as long as the daemon lives. -/
theorem step_eq_some :
    s.step a = some (s', sent) ↔
      s.panicked = false ∧ move { s with sent := [] } a = some s' ∧ sent = s'.sent :=
  guarded_eq_some

/-- How a step moves the goroutine of an attempt: it starts the device, leaves the loop by a quit or
a code that is done, stops the device, closes `release`, and gives what it has. -/
inductive FingerMoves (s : FingerprintSteps) (n : ℕ) :
    FingerprintStep → FingerPhase → FingerPhase → Prop
  | start {p} (h : n = s.attempts + 1) : FingerMoves s n (.claim none) p .spawned
  | verifyErr {err} : FingerMoves s n (.verify n (some err)) .spawned
      (.left (DoVerify.result ⟨some err, -1, none⟩))
  | verify : FingerMoves s n (.verify n none) .spawned .looping
  | quit (h : s.quit.any s.quitClosed = true) : FingerMoves s n (.quit n) .looping (.stopping (-1))
  | verifyStatus {code} (h : isVerifyStatusDone code = true) :
      FingerMoves s n (.verifyStatus n code) .looping (.stopping code)
  | stopVerify {code err} : FingerMoves s n (.stopVerify n err) (.stopping code)
      (.left (DoVerify.result ⟨none, code, err⟩))
  | closeRelease {r} : FingerMoves s n (.closeRelease n) (.left r) (.released r)
  | give {r} : FingerMoves s n (.give n) (.released r) .returned

theorem setPhase_phases (s : FingerprintSteps) (k n : ℕ) (p : FingerPhase) :
    (s.setPhase k p).phases n = s.phases n ∨ n = k ∧ (s.setPhase k p).phases n = p := by
  by_cases h : n = k
  · exact .inr ⟨h, h ▸ Function.update_self ..⟩
  · exact .inl (Function.update_of_ne h ..)

/-- **The moves of the goroutines.** -/
theorem phases_move (hs : s.move a = some s') (n : ℕ) :
    s'.phases n = s.phases n ∨ s.FingerMoves n a (s.phases n) (s'.phases n) := by
  have hset : ∀ (t : FingerprintSteps) (k : ℕ) (p : FingerPhase), t.phases = s.phases →
      s.FingerMoves k a (s.phases k) p →
      (t.setPhase k p).phases n = s.phases n ∨
        s.FingerMoves n a (s.phases n) ((t.setPhase k p).phases n) := by
    intro t k p ht hmoves
    rcases setPhase_phases t k n p with h | ⟨rfl, h⟩
    · exact .inl (h.trans (congrFun ht n))
    · exact .inr (h.symm ▸ hmoves)
  cases next_of_move hs with
  | @claim err hstarts =>
      cases err with
      | none => exact hset _ _ _ rfl (.start rfl)
      | some err => exact .inl rfl
  | verifyErr hn => exact hset _ _ _ rfl (hn ▸ .verifyErr)
  | verify hn => exact hset _ _ _ rfl (hn ▸ .verify)
  | quit hn hquit => exact hset _ _ _ rfl (hn ▸ .quit hquit)
  | done hn hdone => exact hset _ _ _ rfl (hn ▸ .verifyStatus hdone)
  | stopVerify hn => exact hset _ _ _ rfl (hn ▸ .stopVerify)
  | closeRelease hn hc hopen => exact hset _ _ _ rfl (hn ▸ .closeRelease)
  | giveNone hn | give hn => exact hset _ _ _ rfl (hn ▸ .give)
  | _ => exact .inl rfl

/-- The attempts are counted on. -/
theorem attempts_move (hs : s.move a = some s') :
    s.attempts ≤ s'.attempts := by
  cases next_of_move hs with
  | @claim err hstarts =>
      cases err with
      | none => exact Nat.le_succ _
      | some err => exact Nat.le_refl _
  | @setLockState l => exact (s.notifyLock_attempts l).ge
  | _ => exact Nat.le_refl _

/-- A claim of the device counts on. -/
theorem attempts_claim (hs : s.move (.claim none) = some s') :
    s'.attempts = s.attempts + 1 := by
  cases next_of_move hs with
  | claim hstarts => rfl

/-- What else a step does to an attempt: a claim makes a channel and counts on, and the channel that
is closed is that of the last claim, by an `end` that comes. -/
theorem frame_move (hs : s.move a = some s') :
    (s'.attempts = s.attempts ∧ s'.quit = s.quit ∧ a ≠ .claim none ∨
      a = .claim none ∧ 0 < s.starts ∧ s'.attempts = s.attempts + 1 ∧
        s'.quit = some (s.attempts + 1)) ∧
    ∀ c, s'.quitClosed c = true →
      s.quitClosed c = true ∨ s.quit = some c ∧ s.requests a = some s.attempts := by
  cases next_of_move hs with
  | @claim err hstarts =>
      cases err with
      | none => exact ⟨.inr ⟨rfl, hstarts, rfl, rfl⟩, fun _ => .inl⟩
      | some err => exact ⟨.inl ⟨rfl, rfl, by simp⟩, fun _ => .inl⟩
  | @endVerifying c hmux hended hdev hc hopen =>
      refine ⟨.inl ⟨rfl, rfl, by simp⟩, fun c' hc' => ?_⟩
      by_cases heq : c' = c
      · exact .inr ⟨heq ▸ hc, if_pos hmux⟩
      · exact .inl ((Function.update_of_ne heq true s.quitClosed).symm.trans hc')
  | @give n v hn => exact ⟨.inl ⟨rfl, rfl, by simp⟩, fun _ => .inl⟩
  | @setLockState l => exact ⟨.inl ⟨s.notifyLock_attempts l, rfl, by simp⟩, fun _ => .inl⟩
  | _ => exact ⟨.inl ⟨rfl, rfl, by simp⟩, fun _ => .inl⟩

/-- **What a step gives**: what `verify` has returned, or what no controller counts. -/
theorem given_move (hsent : s.sent = []) (hs : s.move a = some s') :
    Quiet (isOutcome a) s'.sent ∨
      ∃ n v, a = .give n ∧ s.phases n = .released (some v) ∧ s'.sent = [⟨n, v⟩] ∧
        s'.devState = statusCodeToDevState v.s ∧ s'.phases n = .returned := by
  have hnone : ∀ t : FingerprintSteps, t.sent = s.sent → Quiet (isOutcome a) t.sent :=
    fun t ht => quiet_of_eq_nil (ht.trans hsent)
  cases next_of_move hs with
  | @claim err hstarts =>
      cases err with
      | none => exact .inl (((hnone s rfl).append rfl rfl).append rfl rfl)
      | some err => exact .inl (hnone _ rfl)
  | @give n v hn =>
      refine .inr ⟨n, v, rfl, hn, ?_, rfl, Function.update_self ..⟩
      show s.sent ++ [⟨n, v⟩] = _
      rw [hsent, List.nil_append]
  | endGive hmux => exact .inl ((hnone s rfl).append rfl rfl)
  | @setLockState l => exact .inl (quiet_notifyLock hsent l)
  | _ => exact .inl (hnone _ rfl)

end FingerprintSteps

end LingmoAuthenticate.Session
