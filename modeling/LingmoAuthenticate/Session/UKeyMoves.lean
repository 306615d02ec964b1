import LingmoAuthenticate.Session.Attempts

/-!
# What a step does to a key attempt

How a step moves the verdicts that are still to come, the calls of `SetPin` and the signal that is
being handled, and what it gives that a controller counts.

* `UKeySteps.outstanding`, `UKeySteps.outstanding_move`: the attempts whose verdict is to come.
* `UKeySteps.pins_move`, `UKeySteps.heard_move`: the calls of `SetPin`, and the signal.
* `UKeySteps.given_move`: what a step gives.
-/

namespace LingmoAuthenticate.Session

open Lib AuthCommon
open UKey (Manager VerifyError)

/-! ## What a step comes to -/

namespace UKeyVerify

variable {w w' : UKeyVerify} {a : UKeyVerifyAction} {o : Option VerifyError}

/-- How a step moves the goroutines of the attempts: none moves, one begins, or one goes on, or
returns. -/
theorem goroutines_move (hs : w.move a = some (w', o)) :
    w'.goroutines = w.goroutines ∧ (∀ g device, a ≠ .goroutine g device) ∧ a ≠ .giveStarted ∨
      a = .giveStarted ∧ w'.goroutines = ⟨w.tx.attempts + 1, .startVerify⟩ :: w.goroutines ∨
      ∃ g device, a = .goroutine g device ∧ g ∈ w.goroutines ∧
        ((∃ stage, w'.goroutines = ⟨g.attempt, stage⟩ :: w.goroutines.erase g ∧
            (∀ err, g.stage ≠ .giveStatus err) ∧
            ∀ id, g.stage = .starting id → w.manager.startVerify id device ≠ none) ∨
          w'.goroutines = w.goroutines.erase g ∧
            ((∃ err, g.stage = .giveStatus err) ∨
              ∃ id, g.stage = .starting id ∧ w.manager.startVerify id device = none)) := by
  have htx : ∀ {w₁ : UKeyVerify} {b : UKeyAction}, w₁.txStep b = some w' →
      w'.goroutines = w₁.goroutines := by
    intro w₁ b hb
    obtain ⟨tx, -, rfl⟩ := Option.map_eq_some_iff.mp hb
    rfl
  cases next_of_move hs with
  | giveStarted hpos => exact .inr (.inl ⟨rfl, rfl⟩)
  | @readStart g device hg hstage =>
      exact .inr (.inr ⟨g, device, rfl, hg, .inl ⟨_, rfl, by simp [hstage], by simp [hstage]⟩⟩)
  | @started g device id _ hg hstage hcall hstep =>
      exact .inr (.inr ⟨g, device, rfl, hg, .inr ⟨htx hstep, .inr ⟨id, hstage, hcall⟩⟩⟩)
  | @failed g device id err hg hstage hcall =>
      refine .inr (.inr ⟨g, device, rfl, hg, .inl ⟨_, rfl, by simp [hstage], ?_⟩⟩)
      intro id' hid'
      cases hstage.symm.trans hid'
      rw [hcall]
      rintro ⟨⟩
  | @readStopped g device err hg hstage =>
      exact .inr (.inr ⟨g, device, rfl, hg, .inl ⟨_, rfl, by simp [hstage], by simp [hstage]⟩⟩)
  | @stopped g device err id hg hstage =>
      exact .inr (.inr ⟨g, device, rfl, hg, .inl ⟨_, rfl, by simp [hstage], by simp [hstage]⟩⟩)
  | @gave g device err _ hg hstage hstep =>
      exact .inr (.inr ⟨g, device, rfl, hg, .inr ⟨htx hstep, .inl ⟨err, hstage⟩⟩⟩)
  | setPassword hstep | verifyResult hstep | state hstep | setLockState hstep =>
      exact .inl ⟨htx hstep, by simp, by simp⟩
  | endTx hstep =>
      obtain ⟨n, hstep, -⟩ := endTx_eq_some hstep
      have hsame := htx hstep
      exact .inl ⟨hsame, by simp, by simp⟩
  | _ => exact .inl ⟨rfl, by simp, by simp⟩

end UKeyVerify

namespace UKeySteps

variable {s s' : UKeySteps} {a : UKeyStep} {sent : List Given}

/-- A step. -/
theorem step_eq_some :
    s.step a = some (s', sent) ↔ s.clearSent.move a = some s' ∧ sent = s'.tx.sent :=
  observed_eq_some

/-! ## The verdicts that are to come -/

/-- The attempt whose verdict is being handled. -/
def heardVerdict (s : UKeySteps) : Option ℕ :=
  match s.heard with
  | some (n, .verifyResult _) => some n
  | _ => none

/-- The attempts whose verdict is still to come: their goroutine runs, the service verifies, or a
handler is about to give it. -/
def outstanding (s : UKeySteps) : List ℕ :=
  s.goroutines.map (·.attempt) ++ s.verifying.map (·.1) ++ s.heardVerdict.toList

/-- The attempt whose verdict a step adds to those to come: a start begins one, and the service may
report on a verification that it does not run. -/
def adds (s : UKeySteps) : UKeyStep → Option ℕ
  | .act .giveStarted => some (s.tx.attempts + 1)
  | .signal n id (.verifyResult _) =>
      if (s.tx.handlers = true ∧ id = s.tx.verificationId) ∧ n ∉ s.verifying.map (·.1) then some n
      else none
  | _ => none

theorem count_outstanding (s : UKeySteps) (n : ℕ) :
    s.outstanding.count n = (s.goroutines.map (·.attempt)).count n +
      (s.verifying.map (·.1)).count n + s.heardVerdict.toList.count n := by
  simp only [outstanding, List.count_append]

/-- What a filter leaves of the verifications. -/
theorem count_filter_le (l : List (ℕ × String)) (p : ℕ × String → Bool) (n : ℕ) :
    ((l.filter p).map (·.1)).count n ≤ (l.map (·.1)).count n :=
  (List.filter_sublist.map _).count_le n

/-- The goroutine of an attempt, beside the others. -/
theorem count_erase {g : UKeyStart} {l : List UKeyStart} (hg : g ∈ l) (n : ℕ) :
    (l.map (·.attempt)).count n =
      ((l.erase g).map (·.attempt)).count n + if g.attempt = n then 1 else 0 := by
  rw [((List.perm_cons_erase hg).map _).count_eq, List.map_cons, List.count_cons]
  simp only [beq_iff_eq]

/-- How a step of `UKeyVerify` moves them: what a goroutine returns with is a verdict less, or one
that the service is to give. -/
theorem count_act {a : UKeyVerifyAction} {w : UKeyVerify} {o : Option VerifyError}
    (hw : s.toUKeyVerify.move a = some (w, o)) (n : ℕ) :
    (w.goroutines.map (·.attempt)).count n + ((s.begins a).toList.map (·.1)).count n +
        (if stopsAttempt (.act a) = some n then 1 else 0) =
      (s.goroutines.map (·.attempt)).count n + if s.adds (.act a) = some n then 1 else 0 := by
  rcases UKeyVerify.goroutines_move hw with ⟨hgs, hno, hnew⟩ | ⟨rfl, hgs⟩ |
    ⟨⟨k, stage⟩, device, rfl, hg, ⟨stage', hgs, hgive, hstart⟩ | ⟨hgs, hstage⟩⟩
  · have hbegins : s.begins a = none := by
      unfold begins
      split
      · exact absurd rfl (hno _ _)
      · rfl
    have hstops : stopsAttempt (.act a) = none := by
      unfold stopsAttempt
      split
      · next heq => exact absurd (UKeyStep.act.inj heq) (hno _ _)
      · next heq => cases heq
      · rfl
    have hadds : s.adds (.act a) = none := by
      unfold adds
      split
      · next heq => exact absurd (UKeyStep.act.inj heq) hnew
      · next heq => cases heq
      · rfl
    simp [hgs, hbegins, hstops, hadds]
  · simp [hgs, begins, stopsAttempt, adds, List.count_cons]
  · rw [hgs, count_erase hg]
    cases stage with
    | giveStatus err => exact absurd rfl (hgive err)
    | starting id =>
        have hfails := hstart id rfl
        simp [begins, stopsAttempt, adds, hfails, List.count_cons]
    | _ => simp [begins, stopsAttempt, adds, List.count_cons]
  · rw [hgs, count_erase hg]
    rcases hstage with ⟨err, rfl⟩ | ⟨id, rfl, hstarts⟩
    · simp [begins, stopsAttempt, adds]
    · simp [begins, stopsAttempt, adds, hstarts, List.count_cons]

/-- **How a step moves the verdicts that are to come**: where an attempt stops there is one less, and
there is at most one more. -/
theorem outstanding_move (hs : s.move a = some s') (n : ℕ) :
    s'.outstanding.count n + (if stopsAttempt a = some n then 1 else 0) ≤
      s.outstanding.count n + if s.adds a = some n then 1 else 0 := by
  rw [count_outstanding, count_outstanding]
  cases next_of_move hs with
  | @act a w o ha hw =>
      have hcount := count_act hw n
      have hfilter := count_filter_le ((s.begins a).toList ++ s.verifying) (awaits w) n
      rw [List.map_append, List.count_append] at hfilter
      dsimp only [heardVerdict]
      omega
  | @verifyResult k id ok hn hfree =>
      have hfilter := count_filter_le s.verifying (·.1 ≠ k) n
      by_cases hid : s.tx.handlers = true ∧ id = s.tx.verificationId
      · have hnone : s.heardVerdict = none := by simp only [heardVerdict, hfree hid.1]
        have hover : k ∉ (s.verifying.filter (·.1 ≠ k)).map (·.1) := by simp
        have hadds : s.adds (.signal k id (.verifyResult ok)) =
            if k ∉ s.verifying.map (·.1) then some k else none := by
          simp only [adds, hid, and_self, true_and]
        rw [hnone, hadds]
        simp only [stopsAttempt, heardVerdict, if_pos hid, Option.toList_some, Option.toList_none,
          List.count_singleton, List.count_nil, beq_iff_eq, reduceCtorEq, if_false]
        by_cases hk : k = n
        · subst hk
          rw [List.count_eq_zero_of_not_mem hover]
          by_cases hmem : k ∈ s.verifying.map (·.1)
          · have hpos := List.count_pos_iff.mpr hmem
            simp only [if_true]
            omega
          · simp [hmem]
        · simp only [if_neg hk]
          omega
      · simp only [stopsAttempt, heardVerdict, if_neg hid, reduceCtorEq, if_false]
        omega
  | @state k id st hn hfree =>
      have hheard : (heardVerdict { s with
          heard := if s.tx.handlers = true ∧ id = s.tx.verificationId then some (k, .state st)
            else s.heard }).toList.count n ≤ s.heardVerdict.toList.count n := by
        unfold heardVerdict
        dsimp only
        split_ifs
        · exact Nat.zero_le _
        · exact Nat.le_refl _
      simp only [stopsAttempt, reduceCtorEq, if_false]
      omega
  | @handleResult k ok hheard =>
      have hstops : stopsAttempt (.handle k (.verifyResult ok)) = some k := rfl
      simp [heardVerdict, hheard, adds, hstops, List.count_cons]
  | @handleState k st hheard =>
      have hstops : stopsAttempt (.handle k (.state st)) = none := rfl
      simp [heardVerdict, hheard, adds, hstops]
  | setToken hdev | notVerifying hdev => exact Nat.le_refl _
  | pinGoes hp hstage | pinReturns hp hstage | pinGives hp hstage => exact Nat.le_refl _

/-! ## The calls of `SetPin`, the signal, and the attempts -/

/-- The goroutine of a call of `SetToken` is that of an attempt that was the last when it came. -/
theorem pins_move (hs : s.move a = some s') {p' : UKeyPin} (hp' : p' ∈ s'.pins) :
    (∃ p ∈ s.pins, p.attempt = p'.attempt) ∨
      a = .setToken ∧ s.tx.devState = .verifying ∧ p'.attempt = s.tx.attempts := by
  cases next_of_move hs with
  | setToken hdev =>
      rcases List.mem_cons.mp hp' with rfl | hp'
      · exact .inr ⟨rfl, hdev, rfl⟩
      · exact .inl ⟨p', hp', rfl⟩
  | @pinGoes p device stage hp hstage =>
      rcases List.mem_cons.mp hp' with rfl | hp'
      · exact .inl ⟨p, hp, rfl⟩
      · exact .inl ⟨p', List.mem_of_mem_erase hp', rfl⟩
  | pinReturns hp hstage | pinGives hp hstage =>
      exact .inl ⟨p', List.mem_of_mem_erase hp', rfl⟩
  | _ => exact .inl ⟨p', hp', rfl⟩

/-- A signal that is being handled was heard, with the id of the transaction. -/
theorem heard_move (hs : s.move a = some s') {n : ℕ} {sig : UKeySignal}
    (hheard : s'.heard = some (n, sig)) :
    s.heard = some (n, sig) ∨
      ∃ id, a = .signal n id sig ∧ n ≤ s.tx.attempts ∧ s.tx.handlers = true ∧
        id = s.tx.verificationId := by
  cases next_of_move hs with
  | @verifyResult k id ok hn hfree =>
      dsimp only at hheard
      split_ifs at hheard with hid
      · cases hheard
        exact .inr ⟨id, rfl, hn, hid⟩
      · exact .inl hheard
  | @state k id st hn hfree =>
      dsimp only at hheard
      split_ifs at hheard with hid
      · cases hheard
        exact .inr ⟨id, rfl, hn, hid⟩
      · exact .inl hheard
  | handleResult hheard' | handleState hheard' => cases hheard
  | _ => exact .inl hheard

end UKeySteps

namespace UKeyTx

@[simp] theorem called_attempts (u : UKeyTx) (n : ℕ) (err : Option String) :
    (u.called n err).attempts = u.attempts := by
  cases err <;> rfl

@[simp] theorem endTx_attempts (u : UKeyTx) (ct : CloseType) :
    (u.endTx ct).attempts = u.attempts := by
  unfold endTx
  dsimp only
  split_ifs <;> rfl

@[simp] theorem verifyResult_attempts (u : UKeyTx) (id : String) (ok : Bool) :
    (u.verifyResult id ok).attempts = u.attempts := by
  unfold verifyResult
  split_ifs <;> rfl

@[simp] theorem state_attempts (u : UKeyTx) (id : String) (s : UKeyState) :
    (u.state id s).attempts = u.attempts := by
  unfold state
  dsimp only
  rw [endTx_closeVerify]
  split_ifs <;> rfl

/-- A step that is no start begins no attempt. -/
theorem step_attempts {u u' : UKeyTx} {a : UKeyAction} (h : u.step a = some u')
    (ha : ∀ constructed, a ≠ .authenticate constructed) : u'.attempts = u.attempts := by
  cases a with
  | authenticate constructed => exact absurd rfl (ha constructed)
  | startVerify n err =>
      obtain ⟨-, heq⟩ := Option.ite_none_right_eq_some.mp h
      cases heq
      exact called_attempts _ n err
  | verifyResult id ok =>
      obtain ⟨-, heq⟩ := Option.ite_none_right_eq_some.mp h
      cases heq
      exact verifyResult_attempts u id ok
  | state id s =>
      obtain ⟨-, heq⟩ := Option.ite_none_right_eq_some.mp h
      cases heq
      exact state_attempts u id s
  | setPassword err =>
      cases h
      exact called_attempts u _ err
  | endTx ct =>
      cases h
      exact endTx_attempts u ct
  | setLockState s =>
      cases (setLockState_eq u s).symm.trans h
      exact u.notifyLock_attempts s

end UKeyTx

/-- A start begins an attempt, and no other step does. -/
theorem UKeyVerify.attempts_move {w w' : UKeyVerify} {a : UKeyVerifyAction} {o : Option VerifyError}
    (hs : w.move a = some (w', o)) :
    w'.tx.attempts = w.tx.attempts ∧ a ≠ .giveStarted ∨
      a = .giveStarted ∧ w'.tx.attempts = w.tx.attempts + 1 := by
  have htx : ∀ {w₁ : UKeyVerify} {b : UKeyAction}, w₁.txStep b = some w' →
      (∀ constructed, b ≠ .authenticate constructed) → w'.tx.attempts = w₁.tx.attempts := by
    intro w₁ b hb hno
    obtain ⟨tx, htx, rfl⟩ := Option.map_eq_some_iff.mp hb
    exact UKeyTx.step_attempts htx hno
  cases next_of_move hs with
  | assign hid => exact .inl ⟨UKeyTx.assign_attempts _ _, by simp⟩
  | giveStarted hpos => exact .inr ⟨rfl, rfl⟩
  | started hg hstage hcall hstep =>
      have hsame := htx hstep (by simp)
      exact .inl ⟨hsame, by simp⟩
  | gave hg hstage hstep =>
      have hsame := htx hstep (by simp)
      exact .inl ⟨hsame, by simp⟩
  | setPassword hstep | verifyResult hstep | state hstep | setLockState hstep =>
      exact .inl ⟨htx hstep (by simp), by simp⟩
  | endTx hstep =>
      obtain ⟨n, hstep, -⟩ := endTx_eq_some hstep
      have hsame := htx hstep (by simp)
      exact .inl ⟨hsame, by simp⟩
  | _ => exact .inl ⟨rfl, by simp⟩

namespace UKeySteps

variable {s s' : UKeySteps} {a : UKeyStep} {sent : List Given}

theorem attempts_move (hs : s.move a = some s') :
    s'.tx.attempts = s.tx.attempts ∧ a ≠ .act .giveStarted ∨
      a = .act .giveStarted ∧ s'.tx.attempts = s.tx.attempts + 1 := by
  cases next_of_move hs with
  | act ha hw =>
      rcases UKeyVerify.attempts_move hw with ⟨hsame, hne⟩ | ⟨rfl, hnext⟩
      · exact .inl ⟨hsame, fun h => hne (UKeyStep.act.inj h)⟩
      · exact .inr ⟨rfl, hnext⟩
  | handleResult hheard => exact .inl ⟨UKeyTx.verifyResult_attempts _ _ _, by simp⟩
  | handleState hheard => exact .inl ⟨UKeyTx.state_attempts _ _ _, by simp⟩
  | pinGives hp hstage => exact .inl ⟨UKeyTx.called_attempts _ _ _, by simp⟩
  | _ => exact .inl ⟨rfl, by simp⟩

end UKeySteps

/-! ## What a step gives -/

namespace UKeyTx

variable {u : UKeyTx}

/-- A call of `end` tells of itself. -/
theorem quiet_endTx (hsent : u.sent = []) (ct : CloseType) :
    Quiet (fun g => !UKeyTx.shouldIgnore g.status.s) (u.endTx ct).sent := by
  unfold endTx
  dsimp only
  split_ifs <;> exact (quiet_of_eq_nil hsent).append rfl rfl

/-- What the handler of `State` gives. -/
theorem mem_sent_state (hsent : u.sent = []) {id : String} {s : UKeyState} {g : Given}
    (hg : g ∈ (u.state id s).sent) :
    g.status.s = stateToStatusCode s u.deviceLost ∨ g.status.s = .ended := by
  unfold state at hg
  by_cases hid : u.verificationId = id
  · rw [if_pos hid] at hg
    simp only [endTx_closeVerify] at hg
    split_ifs at hg <;> simp [giveStatus, hsent] at hg
    all_goals
      first
        | (obtain rfl := hg; exact .inl rfl)
        | (obtain rfl | rfl := hg; exacts [.inl rfl, .inr rfl])
  · rw [if_neg hid, hsent] at hg
    cases hg

end UKeyTx

/-- What a step of `UKeyVerify` gives: the error of a goroutine, with which its attempt stops, or
what no controller counts. -/
theorem UKeyVerify.given_move {w w' : UKeyVerify} {a : UKeyVerifyAction} {o : Option VerifyError}
    (hsent : w.tx.sent = []) (ha : a.isRefined = false) (hs : w.move a = some (w', o)) :
    Quiet (UKeySteps.isOutcome (.act a)) w'.tx.sent ∧ UKeySteps.stopsAttempt (.act a) = none ∨
      ∃ n err device, a = .goroutine ⟨n, .giveStatus err⟩ device ∧
        ⟨n, .giveStatus err⟩ ∈ w.goroutines ∧
        w'.tx.sent = [⟨n, newVerifyStatus .error false err.text⟩] ∧
        w'.tx.devState = statusCodeToDevState .error := by
  have hnone : ∀ tx : UKeyTx, tx.sent = w.tx.sent →
      Quiet (UKeySteps.isOutcome (.act a)) tx.sent :=
    fun tx ht => quiet_of_eq_nil (ht.trans hsent)
  have hstops : ∀ (g : UKeyStart) (device : Option String), (∀ err, g.stage ≠ .giveStatus err) →
      UKeySteps.stopsAttempt (.act (.goroutine g device)) = none := by
    rintro ⟨n, stage⟩ device hstage
    cases stage with
    | giveStatus err => exact absurd rfl (hstage err)
    | _ => rfl
  cases next_of_move hs with
  | @assign id hid =>
      refine .inl ⟨hnone _ ?_, rfl⟩
      unfold UKeyTx.assign
      dsimp only
      split_ifs <;> rfl
  | giveStarted hpos => exact .inl ⟨(hnone w.tx rfl).append rfl rfl, rfl⟩
  | readStart hg hstage | readStopped hg hstage | stopped hg hstage | failed hg hstage =>
      exact .inl ⟨hnone w.tx rfl, hstops _ _ (by simp [hstage])⟩
  | @started g device id _ hg hstage hcall hstep =>
      obtain ⟨tx, htx, rfl⟩ := Option.map_eq_some_iff.mp hstep
      obtain ⟨-, heq⟩ := Option.ite_none_right_eq_some.mp htx
      cases heq
      exact .inl ⟨hnone _ rfl, hstops _ _ (by simp [hstage])⟩
  | @gave g device err _ hg hstage hstep =>
      obtain ⟨n, stage⟩ := g
      obtain rfl : stage = .giveStatus err := hstage
      obtain ⟨tx, htx, rfl⟩ := Option.map_eq_some_iff.mp hstep
      obtain ⟨-, heq⟩ := Option.ite_none_right_eq_some.mp htx
      cases heq
      refine .inr ⟨n, err, device, rfl, hg, ?_, rfl⟩
      show w.tx.sent ++ [_] = _
      rw [hsent, List.nil_append]
  | setPassword hstep | verifyResult hstep | state hstep => cases ha
  | @setLockState l _ hstep =>
      obtain ⟨tx, htx, rfl⟩ := Option.map_eq_some_iff.mp hstep
      cases (UKeyTx.setLockState_eq w.tx l).symm.trans htx
      exact .inl ⟨quiet_notifyLock hsent l, rfl⟩
  | @endTx ct _ hstep =>
      obtain ⟨n, hstep, -⟩ := endTx_eq_some hstep
      obtain ⟨tx, htx, rfl⟩ := Option.map_eq_some_iff.mp hstep
      cases htx
      exact .inl ⟨UKeyTx.quiet_endTx hsent ct, rfl⟩
  | _ => exact .inl ⟨hnone w.tx rfl, rfl⟩

namespace UKeySteps

variable {s s' : UKeySteps} {a : UKeyStep} {sent : List Given}

/-- **What a step gives**: the status with which an attempt stops, the error of a `SetPin`, what a
device state comes to, or what no controller counts. -/
theorem given_move (hsent : s.tx.sent = []) (hs : s.move a = some s') :
    Quiet (isOutcome a) s'.tx.sent ∧ stopsAttempt a = none ∨
      (∃ n g, stopsAttempt a = some n ∧ n ∈ s.outstanding ∧ s'.tx.sent = [g] ∧
        g.status.isResult = true ∧ s'.tx.devState = statusCodeToDevState g.status.s) ∨
      (∃ p err device, a = .pin p device ∧ p ∈ s.pins ∧ p.stage = .giveStatus err ∧
        s'.tx.sent = [⟨s.tx.attempts, newVerifyStatus .error false err.text⟩]) ∨
      ∃ n st, a = .handle n (.state st) ∧ s.heard = some (n, .state st) ∧
        ∀ g ∈ s'.tx.sent, g.status.s = stateToStatusCode st s.tx.deviceLost ∨ g.status.s = .ended := by
  have hnone : ∀ {tx : UKeyTx}, tx = s.tx → Quiet (isOutcome a) tx.sent :=
    fun ht => quiet_of_eq_nil ((congrArg (·.sent) ht).trans hsent)
  cases next_of_move hs with
  | @act a w o ha hw =>
      rcases UKeyVerify.given_move hsent ha hw with hquiet | ⟨n, err, device, rfl, hg, hgiven, hdev⟩
      · exact .inl hquiet
      · refine .inr (.inl ⟨n, _, rfl, ?_, hgiven, rfl, hdev⟩)
        unfold outstanding
        rw [List.append_assoc]
        exact List.mem_append_left _ (List.mem_map.mpr ⟨_, hg, rfl⟩)
  | @handleResult n ok hheard =>
      have hgives : s.tx.verifyResult s.tx.verificationId ok =
          UKeyTx.giveStatus
            { s.tx with failed := s.tx.failed || !ok, settled := true, reported := true }
            s.tx.attempts (newVerifyStatus (if ok then .success else .failure) true "") := if_pos rfl
      refine .inr (.inl ⟨n, ⟨s.tx.attempts, newVerifyStatus (if ok then .success else .failure)
        true ""⟩, rfl, ?_, ?_, ?_, ?_⟩)
      · unfold outstanding heardVerdict
        rw [hheard]
        exact List.mem_append_right _ List.mem_cons_self
      · dsimp only
        rw [hgives]
        show s.tx.sent ++ [_] = _
        rw [hsent, List.nil_append]
      · cases ok <;> rfl
      · dsimp only
        rw [hgives]
        rfl
  | @handleState n st hheard =>
      exact .inr (.inr (.inr ⟨n, st, rfl, hheard, fun g hg => UKeyTx.mem_sent_state hsent hg⟩))
  | @pinGives p device err hp hstage =>
      refine .inr (.inr (.inl ⟨p, err, device, rfl, hp, hstage, ?_⟩))
      show s.tx.sent ++ [_] = _
      rw [hsent, List.nil_append]
  | _ => exact .inl ⟨hnone rfl, rfl⟩

/-- The status with which an attempt stops comes from it. -/
theorem origin_of_stops {n : ℕ} (h : stopsAttempt a = some n) (g : Given) : origin a g = n := by
  unfold stopsAttempt at h
  split at h <;> cases h <;> rfl

end UKeySteps

end LingmoAuthenticate.Session
