import LingmoAuthenticate.Session.EndTx
import LingmoAuthenticate.Session.Session
import LingmoAuthenticate.Session.Success

/-!
# Timeouts: what a timer ends

A start with a timeout arms a timer for each attempt that it has started. The timer knows the
transaction and not the attempt, and nothing stops it: when it fires, it ends whatever there is.

* `Tx.TimedOut`: what is expected of a timer that fires for an attempt.
* `Tx.timedOut_iff`: exactly when a transaction of any run lives up to it.
* `TimedSession.timeout_exact_iff`: the same along every run of a session, with either controller.
* `TimedSession.timer_ends_next_attempt`: a timer that fires after its attempt, and ends the next.
-/

namespace LingmoAuthenticate.Session

open Lib AuthCommon

namespace Tx

/-! ## What is expected of a timer -/

/-- The attempt is under way: PAM is still to answer it, its goroutine is in `verify`, or, for a
key, nothing has been reported for it and the handlers that are to hear of it are connected. -/
def Running : Tx → ℕ → Prop
  | .password tx, k => ∃ a ∈ tx.running, a.attempt = k ∧ (a.id : ℤ) = tx.sessionId
  | .fingerprint tx, k => k ∈ tx.running
  | .face tx, k => tx.running = some k
  | .iris tx, k => tx.running = some k
  | .uKey tx, k => tx.attempts = k ∧ tx.handlers = true ∧ tx.reported = false
  | .custom tx, k => k ∈ tx.running

/-- The timer was armed for an attempt, and that is under way; a password may arm a timer without an
attempt. -/
def TimerRuns (tx : Tx) (k : Option ℕ) : Prop := ∃ n, k = some n ∧ tx.Running n

/-- The timer ends its attempt where that is under way, and has no effect where it is not, however
the goroutine returns that it may wait for. -/
def TimedOut (tx : Tx) (k : Option ℕ) : Prop :=
  ∀ finger camera, tx.CanReturn camera → ∃ tx' sent,
    tx.step (.endTx tx.kind .closeVerify finger camera) = some (tx', sent) ∧
      (tx.TimerRuns k → ¬ tx'.TimerRuns k) ∧
      (¬ tx.TimerRuns k → tx' = tx.clearSent ∧ sent = [])

/-- The attempt is the one that `end` ends: it is under way, it is the last, and the flags and the
channels that `end` reads are those of an attempt that has not been ended. The `end` of a key stops
no verification: the service goes on, and the handlers stay connected. -/
def EndsAttempt : Tx → ℕ → Prop
  | .password tx, k => Running (.password tx) k
  | .fingerprint tx, k =>
      tx.isEnded = false ∧ tx.devState = .verifying ∧ tx.release = false ∧ tx.attempts = k
  | .face tx, k => tx.isEnded = false ∧ tx.release = some false ∧ tx.running = some k
  | .iris tx, k => tx.isEnded = false ∧ tx.release = some false ∧ tx.running = some k
  | .uKey _, _ => False
  | .custom tx, k =>
      tx.isEnded = false ∧ tx.chanPasswd = some false ∧ tx.attempts = k ∧ k ∈ tx.running

/-- The transaction is marked as ended, so that `end` returns at once; a password and a key have no
such mark. -/
def MarkedEnded : Tx → Prop
  | .password _ | .uKey _ => False
  | .fingerprint tx => tx.isEnded = true
  | .face tx => tx.isEnded = true
  | .iris tx => tx.isEnded = true
  | .custom tx => tx.isEnded = true

/-- The timer finds its own attempt, as one that `end` ends, or a transaction that is marked as
ended and in which its attempt is not under way. -/
def TimerFits (tx : Tx) (k : Option ℕ) : Prop :=
  (∃ n, k = some n ∧ tx.EndsAttempt n) ∨ tx.MarkedEnded ∧ ¬ tx.TimerRuns k

end Tx

/-! ## The attempts in `verify` are different ones -/

/-- The goroutines in `verify` are of different attempts, none of them yet to come. -/
def DistinctAttempts (running : List ℕ) (attempts : ℕ) : Prop :=
  running.Nodup ∧ ∀ n ∈ running, n ≤ attempts

theorem DistinctAttempts.cons {running : List ℕ} {attempts : ℕ}
    (h : DistinctAttempts running attempts) :
    DistinctAttempts ((attempts + 1) :: running) (attempts + 1) := by
  refine ⟨List.nodup_cons.mpr ⟨?_, h.1⟩, ?_⟩
  · intro hmem
    exact absurd (h.2 _ hmem) (by omega)
  · intro n hn
    rcases List.mem_cons.mp hn with rfl | hn
    · exact le_rfl
    · exact Nat.le_succ_of_le (h.2 n hn)

theorem DistinctAttempts.erase {running : List ℕ} {attempts : ℕ}
    (h : DistinctAttempts running attempts) (n : ℕ) :
    DistinctAttempts (running.erase n) attempts :=
  ⟨h.1.erase n, fun m hm => h.2 m (List.mem_of_mem_erase hm)⟩

theorem FingerprintTx.distinct_step {ft ft' : FingerprintTx}
    (h : DistinctAttempts ft.running ft.attempts) {a : FingerprintAction}
    (hs : ft.Next a ft') : DistinctAttempts ft'.running ft'.attempts := by
  cases hs with
  | started => exact h.cons
  | verify hv =>
      obtain ⟨-, rfl⟩ := FingerprintTx.verify_eq_some.mp hv
      exact h.erase _
  | endWaited _ _ _ _ hv =>
      obtain ⟨-, rfl⟩ := FingerprintTx.verify_eq_some.mp hv
      exact h.erase _
  | @setLockState s => exact (ft.notifyLock_attempts s).symm ▸ h
  | _ => exact h

theorem CustomTx.distinct_step {tx tx' : CustomTx} (h : DistinctAttempts tx.running tx.attempts)
    {a : CustomAction} (hs : tx.Next a tx') : DistinctAttempts tx'.running tx'.attempts := by
  cases hs with
  | authenticate => exact h.cons
  | dropped => exact h
  | taken => exact h.erase _
  | wasEnded => exact h
  | ended => exact h.erase _
  | @setLockState s => exact (tx.notifyLock_attempts s).symm ▸ h

namespace Tx

/-- The goroutines of a transaction are of different attempts. -/
def Distinct : Tx → Prop
  | .fingerprint tx => DistinctAttempts tx.running tx.attempts
  | .custom tx => DistinctAttempts tx.running tx.attempts
  | _ => True

/-- What timers rely on: the invariants that `end` and the lock notifications have, and that an
attempt runs once. -/
structure TimerInv (tx : Tx) : Prop where
  ending : tx.EndInv
  lock : tx.LockInv
  distinct : tx.Distinct

theorem timerInv_new (kind : TxKind) (type0 : AuthType) (lockState : LockState) :
    (new kind type0 lockState).TimerInv := by
  refine ⟨endInv_new kind type0 lockState, lockInv_new kind type0 lockState, ?_⟩
  cases kind with
  | fingerprint => exact ⟨List.nodup_nil, fun _ hn => (nomatch hn)⟩
  | custom => exact ⟨List.nodup_nil, fun _ hn => (nomatch hn)⟩
  | _ => trivial

theorem TimerInv.clearSent {tx : Tx} (h : tx.TimerInv) : tx.clearSent.TimerInv := by
  refine ⟨h.ending.clearSent, h.lock.clearSent, ?_⟩
  cases tx <;> exact h.distinct

theorem Distinct.call {tx tx' : Tx} (h : tx.Distinct) {a : TxAction} (hs : tx.Calls a tx') :
    tx'.Distinct := by
  cases hs with
  | fingerprint hs => exact FingerprintTx.distinct_step h hs
  | custom hs => exact CustomTx.distinct_step h hs
  | _ => trivial

theorem TimerInv.step {tx tx' : Tx} {sent : List Given} (h : tx.TimerInv) {a : TxAction}
    (hs : tx.step a = some (tx', sent)) : tx'.TimerInv := by
  have hcalls := (calls_of_step hs).1
  refine ⟨?_, h.lock.step hs, h.clearSent.distinct.call hcalls⟩
  exact h.clearSent.ending.call h.clearSent.lock hcalls

/-! ## What a timer does, kind by kind -/

variable {tx : Tx} {k : Option ℕ}

/-- How `end` returns from a goroutine that was told to quit. -/
theorem canReturn_quit (tx : Tx) : tx.CanReturn .quit := by
  cases tx <;> trivial

@[simp] theorem timerRuns_clearSent : tx.clearSent.TimerRuns k ↔ tx.TimerRuns k := by
  cases tx <;> exact Iff.rfl

/-- Where `end` gives a status and ends the attempt, the timer has to find its attempt. -/
theorem timedOut_iff_of_ends
    (h : ∀ finger camera, tx.CanReturn camera → ∃ tx' sent,
      tx.step (.endTx tx.kind .closeVerify finger camera) = some (tx', sent) ∧ sent ≠ [] ∧
        ¬ tx'.TimerRuns k) :
    tx.TimedOut k ↔ tx.TimerRuns k := by
  constructor
  · intro hout
    by_contra hruns
    obtain ⟨tx', sent, hs, hsent, -⟩ := h ⟨none, -1, none⟩ .quit tx.canReturn_quit
    obtain ⟨tx'', sent', hs', -, hquiet⟩ := hout ⟨none, -1, none⟩ .quit tx.canReturn_quit
    rw [hs, Option.some.injEq, Prod.mk.injEq] at hs'
    exact hsent (hs'.2.trans (hquiet hruns).2)
  · intro hruns finger camera hcan
    obtain ⟨tx', sent, hs, -, hended⟩ := h finger camera hcan
    exact ⟨tx', sent, hs, fun _ => hended, fun hnot => absurd hruns hnot⟩

/-- Where `end` gives a status and leaves the attempt as it is, no timer is right. -/
theorem not_timedOut_of_gives {tx' : Tx} {sent : List Given}
    (hs : tx.step (.endTx tx.kind .closeVerify ⟨none, -1, none⟩ .quit) = some (tx', sent))
    (hsent : sent ≠ []) (hsame : tx'.TimerRuns k ↔ tx.TimerRuns k) : ¬ tx.TimedOut k := by
  intro hout
  obtain ⟨tx'', sent', hs', hends, hquiet⟩ := hout ⟨none, -1, none⟩ .quit tx.canReturn_quit
  rw [hs, Option.some.injEq, Prod.mk.injEq] at hs'
  obtain ⟨rfl, rfl⟩ := hs'
  by_cases hruns : tx.TimerRuns k
  · exact hends hruns (hsame.mpr hruns)
  · exact hsent (hquiet hruns).2

/-- Where `end` returns at once, the timer must not find its attempt. -/
theorem timedOut_iff_of_quiet
    (h : ∀ finger camera, tx.CanReturn camera →
      tx.step (.endTx tx.kind .closeVerify finger camera) = some (tx.clearSent, [])) :
    tx.TimedOut k ↔ ¬ tx.TimerRuns k := by
  constructor
  · intro hout hruns
    obtain ⟨tx', sent, hs, hends, -⟩ := hout ⟨none, -1, none⟩ .quit tx.canReturn_quit
    rw [h _ _ tx.canReturn_quit, Option.some.injEq, Prod.mk.injEq] at hs
    exact hends hruns (hs.1 ▸ timerRuns_clearSent.mpr hruns)
  · intro hruns finger camera hcan
    exact ⟨_, _, h finger camera hcan, fun hr => absurd hr hruns, fun _ => ⟨rfl, rfl⟩⟩

/-- Where `end` does not return, no timer is right. -/
theorem not_timedOut_of_stuck
    (hs : tx.step (.endTx tx.kind .closeVerify ⟨none, -1, none⟩ .quit) = none) :
    ¬ tx.TimedOut k := by
  intro hout
  obtain ⟨tx', sent, hs', -⟩ := hout ⟨none, -1, none⟩ .quit tx.canReturn_quit
  rw [hs] at hs'
  cases hs'

/-- The call of `end` on a transaction of a kind, as a step of the transaction. -/
theorem step_of_endTx {τ : Type*} {f : τ → Tx} {o : Option τ} {a : TxAction} {t : τ}
    (hcall : tx.clearSent.call a = o.map f) (ho : o = some t) :
    tx.step a = some (f t, (f t).base.sent) := by
  unfold step
  rw [hcall, ho]
  rfl

/-- A status that is given is sent. -/
theorem giveStatus_sent_ne_nil (bt : BaseTx) (n : ℕ) (s : VerifyStatus) :
    (bt.giveStatus n s).sent ≠ [] := by
  simp

theorem timedOut_password (pt : PasswordTx) :
    TimedOut (.password pt) k ↔ TimerFits (.password pt) k := by
  have hends : TimedOut (.password pt) k ↔ TimerRuns (.password pt) k := by
    refine timedOut_iff_of_ends fun finger camera _ =>
      ⟨_, _, rfl, giveStatus_sent_ne_nil _ _ _, ?_⟩
    rintro ⟨n, -, a, -, -, hid⟩
    -- no session has the number that is there now
    exact absurd hid (by simp [PasswordTx.endTx])
  rw [hends]
  exact (or_iff_left fun h => h.1.elim).symm

/-- The `end` of a key tells of itself and stops nothing, so that no timer of a key is right. -/
theorem timedOut_uKey (u : UKeyTx) : TimedOut (.uKey u) k ↔ TimerFits (.uKey u) k := by
  have hs : (Tx.uKey u).step (.endTx .uKey .closeVerify ⟨none, -1, none⟩ .quit) = some
      (.uKey (UKeyTx.endTx { u with sent := [] } .closeVerify), _) :=
    step_of_endTx (f := .uKey) rfl rfl
  refine iff_of_false (not_timedOut_of_gives hs ?_ ?_) ?_
  · rw [UKeyTx.endTx_closeVerify]
    exact giveStatus_sent_ne_nil _ _ _
  · rw [UKeyTx.endTx_closeVerify]
    exact Iff.rfl
  · rintro (⟨n, -, hends⟩ | ⟨hmarked, -⟩)
    · exact hends
    · exact hmarked

/-- What a fingerprint transaction that is not marked as ended does when it is ended. -/
theorem endTx_fingerprint {ft : FingerprintTx} (hl : ft.LockInv) (he : ft.EndInv)
    (hend : ft.isEnded = false) (waited : DoVerify) :
    ∃ ft', ft.endTx .closeVerify waited = some ft' ∧ ft'.sent ≠ [] ∧
      ft'.running = if ft.devState = .verifying ∧ ft.release = false
        then ft.running.erase ft.attempts else ft.running := by
  obtain ⟨ft₁, h₁, hrun⟩ : ∃ ft₁ : FingerprintTx, (if ft.devState = .verifying then
        if ft.quit then none
        else if ft.release then some { ft with quit := true }
          else FingerprintTx.verify { ft with quit := true } ft.attempts waited
      else some ft) = some ft₁ ∧
      ft₁.running = if ft.devState = .verifying ∧ ft.release = false
        then ft.running.erase ft.attempts else ft.running := by
    by_cases hv : ft.devState = .verifying
    · rw [if_pos hv, hl.verifying hv, if_neg Bool.false_ne_true]
      rcases hr : ft.release with _ | _
      · have hwait := he.waiting (he.started hv) hr
        rw [if_neg Bool.false_ne_true, if_pos ⟨hv, rfl⟩]
        exact ⟨_, FingerprintTx.verify_eq_some.mpr ⟨⟨hwait, rfl⟩, rfl⟩, rfl⟩
      · rw [if_pos rfl, if_neg fun h => (nomatch h.2)]
        exact ⟨_, rfl, rfl⟩
    · rw [if_neg hv, if_neg fun h => hv h.1]
      exact ⟨_, rfl, rfl⟩
  refine ⟨{ ft₁.giveStatus ft₁.attempts defaultVerifyStatusEnd with isEnded := true }, ?_,
    giveStatus_sent_ne_nil _ _ _, hrun⟩
  unfold FingerprintTx.endTx
  rw [if_neg (by simp [hend])]
  exact Option.map_eq_some_iff.mpr ⟨ft₁, h₁, rfl⟩

theorem timedOut_fingerprint {ft : FingerprintTx} (h : TimerInv (.fingerprint ft)) :
    TimedOut (.fingerprint ft) k ↔ TimerFits (.fingerprint ft) k := by
  rcases hend : ft.isEnded with _ | _
  · have hcall := fun waited =>
      endTx_fingerprint h.clearSent.lock h.clearSent.ending hend waited
    by_cases hfits : (ft.devState = .verifying ∧ ft.release = false) ∧ k = some ft.attempts
    · obtain ⟨⟨hverify, hrel⟩, hk⟩ := hfits
      have hmem := h.ending.waiting (h.ending.started hverify) hrel
      refine (timedOut_iff_of_ends ?_).trans
        (iff_of_true ⟨_, hk, hmem⟩ (.inl ⟨_, hk, hend, hverify, hrel, rfl⟩))
      intro finger camera _
      obtain ⟨ft', hft', hsent, hrun⟩ := hcall finger
      refine ⟨_, _, step_of_endTx (f := .fingerprint) rfl hft', hsent, ?_⟩
      rintro ⟨n, hn, hmem'⟩
      have hlast : ft.attempts = n := Option.some.inj (hk.symm.trans hn)
      rw [Running, hrun, if_pos ⟨hverify, hrel⟩, ← hlast] at hmem'
      exact h.distinct.1.not_mem_erase hmem'
    · obtain ⟨ft', hft', hsent, hrun⟩ := hcall ⟨none, -1, none⟩
      refine iff_of_false (not_timedOut_of_gives (step_of_endTx (f := .fingerprint) rfl hft')
        hsent ?_) ?_
      · refine exists_congr fun n => and_congr_right ?_
        intro hn
        rw [Running, hrun]
        split_ifs with hv
        · exact List.mem_erase_of_ne fun hne => hfits ⟨hv, hn.trans (congrArg some hne)⟩
        · exact Iff.rfl
      · rintro (⟨n, hn, -, hverify, hrel, hlast⟩ | ⟨hmarked, -⟩)
        · exact hfits ⟨⟨hverify, hrel⟩, hn.trans (congrArg some hlast.symm)⟩
        · exact absurd (hend.symm.trans hmarked) (by decide)
  · have hquiet : TimedOut (.fingerprint ft) k ↔ ¬ TimerRuns (.fingerprint ft) k :=
      timedOut_iff_of_quiet fun finger camera _ =>
        step_of_endTx (f := .fingerprint) rfl (if_pos hend)
    rw [hquiet]
    refine ⟨fun hnot => .inr ⟨hend, hnot⟩, ?_⟩
    rintro (⟨n, -, hopen, -⟩ | ⟨-, hnot⟩)
    · exact absurd (hend.symm.trans hopen) (by decide)
    · exact hnot

/-- A custom transaction that is not marked as ended: its last attempt is ended. -/
theorem timedOut_custom {ct : CustomTx} (h : TimerInv (.custom ct)) :
    TimedOut (.custom ct) k ↔ TimerFits (.custom ct) k := by
  rcases hend : ct.isEnded with _ | _
  · have hfits : TimerFits (.custom ct) k ↔
        ∃ n, k = some n ∧ ct.chanPasswd = some false ∧ ct.attempts = n ∧ n ∈ ct.running := by
      unfold TimerFits MarkedEnded EndsAttempt
      simp [hend]
    rw [hfits]
    rcases hchan : ct.chanPasswd with _ | _ | _
    · refine iff_of_false (not_timedOut_of_stuck ?_) (by simp)
      have hcall : CustomTx.endTx { ct with sent := [] } .closeVerify = none := by
        unfold CustomTx.endTx
        rw [if_neg (by simp [hend]), if_neg (by simp [hchan])]
      exact congrArg (Option.map fun tx : Tx => (tx, tx.base.sent))
        (congrArg (Option.map Tx.custom) hcall)
    · have hcall : CustomTx.endTx { ct with sent := [] } .closeVerify = some
          { CustomTx.giveStatus { ct with sent := [] } ct.attempts defaultVerifyStatusEnd with
            isEnded := true, chanPasswd := some true, running := ct.running.erase ct.attempts } := by
        unfold CustomTx.endTx
        rw [if_neg (by simp [hend]), if_pos hchan]
      have hs := fun finger camera => step_of_endTx
        (show (Tx.custom ct).clearSent.call (.endTx .custom .closeVerify finger camera) =
          Option.map .custom _ from rfl) hcall
      by_cases hk : k = some ct.attempts
      · refine (timedOut_iff_of_ends fun finger camera _ =>
          ⟨_, _, hs finger camera, giveStatus_sent_ne_nil _ _ _, ?_⟩).trans ?_
        · rintro ⟨n, hn, hmem⟩
          have hlast : ct.attempts = n := Option.some.inj (hk.symm.trans hn)
          subst hlast
          exact h.distinct.1.not_mem_erase hmem
        · refine exists_congr fun n => and_congr_right ?_
          intro hn
          have hlast : ct.attempts = n := Option.some.inj (hk.symm.trans hn)
          exact ⟨fun hmem => ⟨rfl, hlast, hmem⟩, fun hall => hall.2.2⟩
      · refine iff_of_false (not_timedOut_of_gives (hs _ _) (giveStatus_sent_ne_nil _ _ _) ?_) ?_
        · refine exists_congr fun n => and_congr_right ?_
          intro hn
          exact List.mem_erase_of_ne fun hne => hk (hn.trans (congrArg some hne))
        · rintro ⟨n, hn, -, hlast, -⟩
          exact hk (hn.trans (congrArg some hlast.symm))
    · exact absurd (hend.symm.trans (h.ending hchan)) (by decide)
  · have hquiet : TimedOut (.custom ct) k ↔ ¬ TimerRuns (.custom ct) k :=
      timedOut_iff_of_quiet fun finger camera _ => step_of_endTx (f := .custom) rfl (if_pos hend)
    rw [hquiet]
    refine ⟨fun hnot => .inr ⟨hend, hnot⟩, ?_⟩
    rintro (⟨n, -, hopen, -⟩ | ⟨-, hnot⟩)
    · exact absurd (hend.symm.trans hopen) (by decide)
    · exact hnot

/-- A transaction of either camera. -/
def ofCamera : (c : CameraType) → CameraTx c → Tx
  | .face, tx => .face tx
  | .iris, tx => .iris tx

theorem running_ofCamera {c : CameraType} (ft : CameraTx c) (n : ℕ) :
    (ofCamera c ft).Running n ↔ ft.running = some n := by
  cases c <;> exact Iff.rfl

theorem endsAttempt_ofCamera {c : CameraType} (ft : CameraTx c) (n : ℕ) :
    (ofCamera c ft).EndsAttempt n ↔
      ft.isEnded = false ∧ ft.release = some false ∧ ft.running = some n := by
  cases c <;> exact Iff.rfl

theorem markedEnded_ofCamera {c : CameraType} (ft : CameraTx c) :
    (ofCamera c ft).MarkedEnded ↔ ft.isEnded = true := by
  cases c <;> exact Iff.rfl

/-- What a camera transaction that is not marked as ended does when it is ended; without a channel
`release`, it waits for ever. -/
theorem endTx_camera {c : CameraType} {ft : CameraTx c} (hl : ft.LockInv) (he : ft.EndInv)
    (hend : ft.isEnded = false) {waited : CameraLeave} (hwaited : waited.isPossible c = true) :
    (ft.release = none → ft.endTx .closeVerify waited = none) ∧
      (ft.release ≠ none → ∃ ft', ft.endTx .closeVerify waited = some ft' ∧ ft'.sent ≠ [] ∧
        ft'.running = if ft.release = some false then none else ft.running) := by
  obtain ⟨ft₁, h₁, hrun, hrel⟩ : ∃ ft₁ : CameraTx c, (if ft.devState = .verifying then
      if ft.quit = some false then some { ft with quit := some true } else none
      else some ft) = some ft₁ ∧ ft₁.running = ft.running ∧ ft₁.release = ft.release := by
    by_cases hv : ft.devState = .verifying
    · rw [if_pos hv, if_pos (hl.verifying hv)]
      exact ⟨_, rfl, rfl, rfl⟩
    · rw [if_neg hv]
      exact ⟨ft, rfl, rfl, rfl⟩
  unfold CameraTx.endTx
  rw [if_neg (by simp [hend])]
  dsimp only
  rw [h₁, Option.bind_some, hrel]
  rcases hr : ft.release with _ | _ | _
  · exact ⟨fun _ => rfl, fun h => absurd rfl h⟩
  · obtain ⟨ft₂, h₂⟩ := CameraTx.leave_isSome (hrun ▸ he hr) hwaited
    obtain ⟨n, -, hleft, -⟩ := CameraTx.leave_spec h₂
    exact ⟨fun h => (nomatch h), fun _ => ⟨_, Option.map_eq_some_iff.mpr ⟨ft₂, h₂, rfl⟩,
      giveStatus_sent_ne_nil _ _ _, hleft⟩⟩
  · exact ⟨fun h => (nomatch h), fun _ => ⟨_, rfl, giveStatus_sent_ne_nil _ _ _, hrun⟩⟩

theorem timedOut_camera {c : CameraType} {ft : CameraTx c} (h : TimerInv (ofCamera c ft)) :
    TimedOut (ofCamera c ft) k ↔ TimerFits (ofCamera c ft) k := by
  have hl : ({ ft with sent := [] } : CameraTx c).LockInv := by
    cases c <;> exact h.clearSent.lock
  have he : ({ ft with sent := [] } : CameraTx c).EndInv := by
    cases c <;> exact h.clearSent.ending
  have hpossible : ∀ {l}, (ofCamera c ft).CanReturn l → l.isPossible c = true := by
    intro l hl
    cases c <;> exact hl
  have hstep : ∀ {finger camera ft'},
      ({ ft with sent := [] } : CameraTx c).endTx .closeVerify camera = some ft' →
        step (ofCamera c ft) (.endTx (ofCamera c ft).kind .closeVerify finger camera) =
          some (ofCamera c ft', ft'.sent) := by
    intro finger camera ft' hft'
    cases c <;> exact step_of_endTx rfl hft'
  rcases hend : ft.isEnded with _ | _
  · have hcall := fun waited (hw : CameraLeave.isPossible c waited = true) =>
      endTx_camera hl he hend hw
    have hfits : TimerFits (ofCamera c ft) k ↔
        ∃ n, k = some n ∧ ft.release = some false ∧ ft.running = some n := by
      unfold TimerFits
      simp only [endsAttempt_ofCamera, markedEnded_ofCamera, hend, Bool.false_eq_true, false_and,
        or_false, true_and]
    rw [hfits]
    rcases hr : ft.release with _ | _ | _
    · refine iff_of_false (not_timedOut_of_stuck ?_) (by simp)
      have hnone := (hcall .quit rfl).1 hr
      cases c <;> exact congrArg (Option.map fun tx : Tx => (tx, tx.base.sent))
        (congrArg (Option.map (ofCamera _)) hnone)
    · refine (timedOut_iff_of_ends ?_).trans ?_
      · intro finger camera hcan
        obtain ⟨ft', hft', hsent, hrun⟩ := (hcall _ (hpossible hcan)).2 (by simp [hr])
        refine ⟨_, _, hstep hft', hsent, ?_⟩
        rintro ⟨n, -, hn⟩
        rw [running_ofCamera, hrun, if_pos hr] at hn
        cases hn
      · refine exists_congr fun n => and_congr_right ?_
        intro _
        rw [running_ofCamera]
        exact ⟨fun hn => ⟨rfl, hn⟩, fun hn => hn.2⟩
    · obtain ⟨ft', hft', hsent, hrun⟩ := (hcall .quit rfl).2 (by simp [hr])
      refine iff_of_false (not_timedOut_of_gives (hstep hft') hsent ?_) (by simp)
      refine exists_congr fun n => and_congr_right ?_
      intro _
      rw [running_ofCamera, running_ofCamera, hrun, if_neg (by simp [hr])]
  · have hquiet : TimedOut (ofCamera c ft) k ↔ ¬ TimerRuns (ofCamera c ft) k := by
      refine timedOut_iff_of_quiet ?_
      intro finger camera _
      have hcleared : (ofCamera c ft).clearSent = ofCamera c { ft with sent := [] } := by
        cases c <;> rfl
      rw [hstep (if_pos hend), hcleared]
    rw [hquiet]
    refine ⟨fun hnot => .inr ⟨(markedEnded_ofCamera ft).mpr hend, hnot⟩, ?_⟩
    rintro (⟨n, -, hends⟩ | ⟨-, hnot⟩)
    · exact absurd (hend.symm.trans ((endsAttempt_ofCamera ft n).mp hends).1) (by decide)
    · exact hnot

/-- **When a timer ends what it was armed for.** On the states of any run, a timer that fires ends
its attempt if that is under way and has no effect otherwise exactly when it finds its own attempt,
as one that `end` ends, or a transaction that is marked as ended and has left that attempt behind.
-/
theorem timedOut_iff (h : tx.TimerInv) : tx.TimedOut k ↔ tx.TimerFits k := by
  cases tx with
  | password pt => exact timedOut_password pt
  | fingerprint ft => exact timedOut_fingerprint h
  | face ft => exact timedOut_camera (c := .face) h
  | iris ft => exact timedOut_camera (c := .iris) h
  | uKey u => exact timedOut_uKey u
  | custom ct => exact timedOut_custom h

end Tx

/-! ## Sessions with timers -/

/-- A timer that was armed by a start, with the attempt that the start has started; neither the
attempt nor its number is known to the program. -/
structure Timer where
  type0 : AuthType
  attempt : Option ℕ
  deriving DecidableEq, Repr

/-- A session, and the timers that its starts have armed and that are still to fire. -/
structure TimedSession where
  session : SessionState
  timers : List Timer

/-- What happens to a session with timers. A start with a timeout starts one transaction; starts
without, results, lock notifications and calls of `End` are actions of the session. -/
inductive TimedAction where
  | act (a : SessionAction)
  | start (t : AuthType) (a : TxAction) (timeout : ℤ)
  | fire (timer : Timer) (finger : DoVerify) (camera : CameraLeave)

namespace TimedSession

/-- A new session has no timers. -/
def new (available : AuthType → Bool) (locks : AuthType → LockState) (c : Controller) :
    TimedSession :=
  ⟨.start available locks c, []⟩

/-- The timer that a start arms: `authenticate` returns no error where it has started an attempt,
and for a password always. Source: `normal_verify.go` and `multifactor_verify.go`, `authenticate`.
-/
def armed (t : AuthType) (before after : Tx) (timeout : ℤ) : List Timer :=
  let started := before.base.attempts < after.base.attempts
  if timeout ≠ -1 ∧ 0 < timeout ∧ (before.kind = .password ∨ started) then
    [⟨t, if started then some after.base.attempts else none⟩]
  else []

/-- A timer calls `end` of the transaction, whatever there is.
Source: `normal_verify.go` and `multifactor_verify.go`, `authenticate`, the function given to
`time.AfterFunc`. -/
def fire (translate : String → String) (s : TimedSession) (timer : Timer) (finger : DoVerify)
    (camera : CameraLeave) : Option (TimedSession × List (ℕ × ProxyCall)) :=
  (s.session.txs timer.type0).bind fun tx =>
    (s.session.step translate
      (.tx timer.type0 (.endTx tx.kind .closeVerify finger camera))).map fun r =>
        (⟨r.1, s.timers.erase timer⟩, r.2)

/-- One step. Source: `normal_verify.go` and `multifactor_verify.go`, `authenticate`. -/
def step (translate : String → String) (s : TimedSession) :
    TimedAction → Option (TimedSession × List (ℕ × ProxyCall))
  | .act a => (s.session.step translate a).map fun r => (⟨r.1, s.timers⟩, r.2)
  | .start t a timeout =>
      if a.isStart then
        (s.session.txs t).bind fun tx => (s.session.step translate (.tx t a)).map fun r =>
          (⟨r.1, s.timers ++ (r.1.txs t).elim [] fun tx' => armed t tx tx' timeout⟩, r.2)
      else none
  | .fire timer finger camera =>
      if timer ∈ s.timers then s.fire translate timer finger camera else none

/-- A timer that fires ends its attempt, and has no effect where that is not under way. -/
def TimesOut (s : TimedSession) : TimedAction → Prop
  | .fire timer _ _ =>
      timer ∈ s.timers → ∀ tx, s.session.txs timer.type0 = some tx → tx.TimedOut timer.attempt
  | _ => True

/-- A timer fires where it fits. -/
def FiresFitting (s : TimedSession) : TimedAction → Prop
  | .fire timer _ _ =>
      timer ∈ s.timers → ∀ tx, s.session.txs timer.type0 = some tx → tx.TimerFits timer.attempt
  | _ => True

/-- What timers rely on holds of all transactions. -/
def Inv (s : TimedSession) : Prop := ∀ t tx, s.session.txs t = some tx → tx.TimerInv

theorem inv_new (available : AuthType → Bool) (locks : AuthType → LockState) (c : Controller) :
    (new available locks c).Inv := by
  intro t tx htx
  simp only [new, SessionState.start, Option.ite_none_right_eq_some] at htx
  obtain ⟨-, htx⟩ := htx
  unfold newTx at htx
  split at htx <;> cases htx <;> exact Tx.timerInv_new ..

/-- A session step is one of a transaction, or leaves the transactions alone. -/
theorem inv_of_session_step {translate : String → String} {s s' : SessionState} {a : SessionAction}
    {o : List (ℕ × ProxyCall)} {timers timers' : List Timer} (h : Inv ⟨s, timers⟩)
    (hs : s.step translate a = some (s', o)) : Inv ⟨s', timers'⟩ := by
  cases SessionState.next_of_step hs with
  | @tx t a tx tx' sent htx hstep =>
      intro u tx'' hu
      have hu' : Function.update s.txs t (some tx') u = some tx'' := by
        simp only [SessionState.sendStatus] at hu
        split_ifs at hu <;> exact hu
      by_cases hut : u = t
      · rw [hut, Function.update_self] at hu'
        cases hu'
        exact (h t tx htx).step hstep
      · rw [Function.update_of_ne hut] at hu'
        exact h u tx'' hu'
  | receive => exact h
  | wasEnded => exact h
  | ended => exact h

theorem Inv.step {translate : String → String} {s s' : TimedSession} {a : TimedAction}
    {o : List (ℕ × ProxyCall)} (h : s.Inv) (hs : s.step translate a = some (s', o)) : s'.Inv := by
  cases a with
  | act a =>
      obtain ⟨r, hr, heq⟩ := Option.map_eq_some_iff.mp hs
      cases heq
      exact inv_of_session_step h hr
  | start t a timeout =>
      simp only [TimedSession.step, Option.ite_none_right_eq_some] at hs
      obtain ⟨-, hs⟩ := hs
      obtain ⟨tx, -, hs⟩ := Option.bind_eq_some_iff.mp hs
      obtain ⟨r, hr, heq⟩ := Option.map_eq_some_iff.mp hs
      cases heq
      exact inv_of_session_step h hr
  | fire timer finger camera =>
      simp only [TimedSession.step, Option.ite_none_right_eq_some] at hs
      obtain ⟨-, hs⟩ := hs
      obtain ⟨tx, -, hs⟩ := Option.bind_eq_some_iff.mp hs
      obtain ⟨r, hr, heq⟩ := Option.map_eq_some_iff.mp hs
      cases heq
      exact inv_of_session_step h hr

/-- **When timeouts end what they were armed for.** In every run of a session, with either
controller, each timer that fires ends its own attempt where that is under way and has no effect
otherwise exactly when each finds its own attempt, as one that `end` ends, or a transaction that is
marked as ended and in which its attempt is not under way. -/
theorem timeout_exact_iff (translate : String → String) (available : AuthType → Bool)
    (locks : AuthType → LockState) (c : Controller) (acts : List TimedAction) :
    Along (step translate) TimesOut (new available locks c) acts ↔
      Along (step translate) FiresFitting (new available locks c) acts := by
  refine along_iff (I := Inv) (fun _ _ _ _ h hs => h.step hs) ?_ (inv_new available locks c) acts
  intro s a h
  cases a with
  | fire timer finger camera =>
      refine forall_congr' fun _ => forall_congr' fun tx => forall_congr' ?_
      intro htx
      exact Tx.timedOut_iff (h _ tx htx)
  | _ => exact Iff.rfl

/-- A password that is started with a timeout and fails, and that is ended and started again before
the time is over. -/
def restartBeforeTimeout : List TimedAction :=
  [.start .password (.password (.authenticate true)) 5,
    .act (.tx .password (.password (.doAuth ⟨1, 1⟩ false))),
    .act (.tx .password (.password (.endTx .closeVerify))),
    .start .password (.password (.authenticate true)) (-1)]

/-- The timer of the first attempt ends the second. -/
theorem timer_ends_next_attempt :
    ¬ ∀ (translate : String → String) (available : AuthType → Bool) (locks : AuthType → LockState)
      (c : Controller) (acts : List TimedAction),
      Along (step translate) TimesOut (new available locks c) acts := by
  intro h
  have hfire := (h id (fun t => t = .password) (fun _ => .unlock) (.normal (.start [.password]))
    (restartBeforeTimeout ++ [.fire ⟨.password, some 1⟩ ⟨none, -1, none⟩ .quit])).of_run rfl
  rcases (Tx.timedOut_password _).mp (hfire (by decide) _ rfl) with ⟨n, hn, a, ha, hattempt, -⟩ | hend
  · cases hn
    rcases ha with _ | _
    · cases hattempt
    · contradiction
  · exact hend.1

end TimedSession

end LingmoAuthenticate.Session
