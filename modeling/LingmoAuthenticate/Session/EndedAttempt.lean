import LingmoAuthenticate.Session.CameraMoves
import LingmoAuthenticate.Session.CustomMoves
import LingmoAuthenticate.Session.FingerprintMoves
import LingmoAuthenticate.Session.PasswordMoves
import LingmoAuthenticate.Session.UKeyMoves

/-!
# No result of an attempt that has ended

Once `end` has returned, no success, failure or error of the attempt that was ended is to reach the
controller; and a password prompt that is cancelled is not to count as a failed try. Where a result
is before it is given differs from kind to kind: past the test of the session id, held by a
goroutine that has closed `release`, a token that was taken, or a verification that the key service
runs and no `end` stops.

* `PasswordSteps.results` and its like, `TxKind.results`: where the results of each kind are.
* `no_late_result`: no result comes late where no attempt has one under way when its `end` returns,
  and none arises for an attempt that has ended.
* `cancelled_prompt_fails`: a cancelled prompt counts as a failed try.
-/

namespace LingmoAuthenticate.Session

open Lib AuthCommon

/-! ## Passwords -/

namespace PasswordSteps

/-- A verdict that has passed the test of the session id. -/
def holdsResult (s : PasswordSteps) (n : ℕ) : Prop :=
  ∃ k v next, s.targets k = n ∧ s.pams k = .giving v next ∧ v.isResult = true

/-- A verdict passes the test of the session id. -/
def arises (s : PasswordSteps) : PasswordStep → Option ℕ
  | .testId k =>
      match s.pams k with
      | .testing v _ =>
          if ((s.sessionOf k).id : ℤ) = s.sessionId ∧ v.isResult = true then some (s.targets k)
          else none
      | _ => none
  | _ => none

/-- Where the results of a password are. -/
def results : Results episodes where
  holds := holdsResult
  arises := arises
  given_of hs g hg hres := by
    obtain ⟨-, hmove, rfl⟩ := step_eq_some.mp hs
    rcases given_move rfl hmove with hquiet | ⟨k, v, next, rfl, hk, hsent, -, -⟩
    · exact absurd ((hquiet g hg).2.symm.trans hres) Bool.false_ne_true
    · rw [hsent, List.mem_singleton] at hg
      subst hg
      exact .inl ⟨k, v, next, rfl, hk, hres⟩
  holds_of := by
    rintro s s' a given hs n ⟨k, v, next, hn, hk, hres⟩
    obtain ⟨-, hmove, -⟩ := step_eq_some.mp hs
    have htarget : s.targets k = n := by
      rcases targets_move hmove k with ⟨hsame, -⟩ | ⟨o, -, -, -, hspawned⟩
      · exact hsame.symm.trans hn
      · cases hk.symm.trans hspawned
    rcases pams_move hmove k with hsame | hmoves
    · exact .inl ⟨k, v, next, htarget, hsame.symm.trans hk, hres⟩
    · rw [hk] at hmoves
      generalize hp : s.pams k = p at hmoves
      generalize hq : PamPhase.giving v next = q at hmoves
      cases hmoves with
      | pass hid =>
          cases hq
          right
          simp only [arises, hp, ← htarget]
          exact if_pos ⟨hid, hres⟩
      | drop | give => exact absurd hq.symm (PamNext.toPhase_ne_giving _ _ _)
      | _ => cases hq

end PasswordSteps

/-! ## Fingerprints -/

namespace FingerprintSteps

/-- A result that `verify` has returned. -/
def holdsResult (s : FingerprintSteps) (n : ℕ) : Prop :=
  ∃ v, s.phases n = .left (some v) ∨ s.phases n = .released (some v)

/-- `verify` returns a result: the device does not start, does not stop, or has reported one. -/
def arises (s : FingerprintSteps) : FingerprintStep → Option ℕ
  | .verify n (some _) => if s.phases n = .spawned then some n else none
  | .stopVerify n err =>
      match s.phases n with
      | .stopping code => if (DoVerify.result ⟨none, code, err⟩).isSome then some n else none
      | _ => none
  | _ => none

/-- Where the results of a fingerprint are. -/
def results : Results episodes where
  holds := holdsResult
  arises := arises
  given_of hs g hg hres := by
    obtain ⟨-, hmove, rfl⟩ := step_eq_some.mp hs
    rcases given_move rfl hmove with hquiet | ⟨n, v, rfl, hn, hsent, -, -⟩
    · exact absurd ((hquiet g hg).2.symm.trans hres) Bool.false_ne_true
    · rw [hsent, List.mem_singleton] at hg
      subst hg
      exact .inl ⟨v, .inr hn⟩
  holds_of := by
    rintro s s' a given hs n ⟨v, hn⟩
    obtain ⟨-, hmove, -⟩ := step_eq_some.mp hs
    rcases phases_move hmove n with hsame | hmoves
    · exact .inl ⟨v, hsame ▸ hn⟩
    · generalize hp : s.phases n = p at hmoves
      generalize hq : s'.phases n = q at hmoves hn
      cases hmoves with
      | verifyErr => exact .inr (if_pos hp)
      | stopVerify =>
          next code err =>
          right
          have hsome : (DoVerify.result ⟨none, code, err⟩).isSome = true := by
            rcases hn with hn | hn
            · rw [FingerPhase.left.inj hn]
              rfl
            · cases hn
          simp only [arises, hp, if_pos hsome]
      | closeRelease =>
          rcases hn with hn | hn <;> cases hn
          exact .inl ⟨v, .inl hp⟩
      | _ => rcases hn with hn | hn <;> cases hn

end FingerprintSteps

/-! ## Cameras -/

namespace CameraVerify

variable {c : CameraType}

/-- An error that `verify` has returned. -/
def holdsResult (s : CameraVerify c) (n : ℕ) : Prop :=
  n = s.attempts ∧ ∃ v, s.phase = some (.left (some v))

/-- `verify` returns an error, or its loop leaves with a result. -/
def arises (s : CameraVerify c) : CameraVerifyStep → Option ℕ
  | .noDriver | .genActionId (some _) =>
      if s.phase = some .verifying then some s.attempts else none
  | a => if (s.leaves a).any VerifyStatus.isResult then some s.attempts else none

/-- Where the results of a camera are. -/
def results (c : CameraType) : Results (episodes c) where
  holds := holdsResult
  arises := arises
  given_of := by
    intro s s' a given hs g hg hres
    obtain ⟨hmove, rfl⟩ := step_eq_some.mp hs
    rcases given_move rfl hmove with ⟨hquiet, -⟩ | ⟨v, hsent, -, hfrom⟩
    · exact absurd ((hquiet g hg).2.symm.trans hres) Bool.false_ne_true
    · rw [hsent, List.mem_singleton] at hg
      subst hg
      rcases hfrom with ⟨-, hleaves, -⟩ | ⟨rfl, hphase, -⟩
      · right
        have hany : (s.leaves a).any VerifyStatus.isResult = true := by
          have hleaves : s.leaves a = some v := hleaves
          rw [hleaves]
          exact hres
        cases a with
        | read | timeout => exact if_pos hany
        | _ => cases hleaves
      · exact .inl ⟨rfl, v, hphase⟩
  holds_of := by
    rintro s s' a given hs n ⟨rfl, v, hn⟩
    obtain ⟨hmove, -⟩ := step_eq_some.mp hs
    have hattempts : s'.attempts = s.attempts := by
      rcases (frame_move hmove).1 with h | ⟨-, -, hclaimed⟩
      · exact h
      · cases hn.symm.trans hclaimed
    rcases phase_move hmove with hsame | hmoves
    · exact .inl ⟨hattempts, v, hsame.symm.trans hn⟩
    · rw [hn] at hmoves
      generalize hp : s.phase = p at hmoves
      cases hmoves with
      | noDriver | genErr =>
          right
          rw [hattempts]
          exact if_pos hp

end CameraVerify

/-! ## Keys -/

namespace UKeySteps

/-- The verdict is still to come, an error of the device is being handled, or a call of `SetPin` has
not come back. -/
def holdsResult (s : UKeySteps) (n : ℕ) : Prop :=
  n ∈ s.outstanding ∨ s.heard = some (n, .state .deviceException) ∨ ∃ p ∈ s.pins, p.attempt = n

/-- A start begins an attempt, a call of `SetToken` comes for it, or the service tells of an error of
the device, or of a verdict on a verification that it does not run. -/
def arises (s : UKeySteps) : UKeyStep → Option ℕ
  | .signal n id (.state .deviceException) =>
      if s.tx.handlers = true ∧ id = s.tx.verificationId then some n else none
  | .setToken => if s.tx.devState = .verifying then some s.tx.attempts else none
  | a => s.adds a

/-- A verdict that a step adds to those to come arises. -/
theorem arises_of_adds {s : UKeySteps} {a : UKeyStep} {n : ℕ} (h : s.adds a = some n) :
    s.arises a = some n := by
  unfold arises
  split
  · cases h
  · cases h
  · exact h

/-- Where the results of a key are: with the service, until it is told. -/
def results : Results episodes where
  holds := holdsResult
  arises := arises
  given_of := by
    intro s s' a given hs g hg hres
    obtain ⟨hmove, rfl⟩ := step_eq_some.mp hs
    left
    rcases given_move rfl hmove with ⟨hquiet, -⟩ | ⟨n, g', hstops, hn, hsent, -, -⟩ |
      ⟨p, err, device, rfl, hp, -, -⟩ | ⟨n, st, rfl, hheard, hcodes⟩
    · exact absurd ((hquiet g hg).2.symm.trans hres) Bool.false_ne_true
    · exact .inl (show origin a g ∈ s.outstanding from (origin_of_stops hstops g).symm ▸ hn)
    · exact .inr (.inr ⟨p, hp, rfl⟩)
    · -- an error is the only result among the codes of the states
      have hst : st = .deviceException := by
        have hres : g.status.isResult = true := hres
        have hcode := hcodes g hg
        unfold VerifyStatus.isResult at hres
        cases st with
        | deviceException => rfl
        | deviceOk | deviceVerifying | deviceNotExist | other =>
            unfold stateToStatusCode at hcode
            cases hlost : s.clearSent.tx.deviceLost <;> rcases hcode with hcode | hcode <;>
              simp [hcode, hlost] at hres
      exact .inr (.inl (hst ▸ hheard))
  holds_of := by
    intro s s' a given hs n hn
    obtain ⟨hmove, -⟩ := step_eq_some.mp hs
    rcases hn with hn | hheard | ⟨p', hp', rfl⟩
    · have hcount := outstanding_move hmove n
      have hpos := List.count_pos_iff.mpr hn
      by_cases hadds : s.adds a = some n
      · exact .inr (arises_of_adds hadds)
      · rw [if_neg (show s.clearSent.adds a ≠ some n from hadds)] at hcount
        exact .inl (.inl (List.count_pos_iff.mp (show 0 < s.clearSent.outstanding.count n by omega)))
    · rcases heard_move hmove hheard with hwas | ⟨id, rfl, -, hid⟩
      · exact .inl (.inr (.inl hwas))
      · exact .inr (if_pos hid)
    · rcases pins_move hmove hp' with ⟨p, hp, hattempt⟩ | ⟨rfl, hdev, hattempt⟩
      · exact .inl (.inr (.inr ⟨p, hp, hattempt⟩))
      · right
        rw [hattempt]
        exact if_pos hdev

end UKeySteps

/-! ## Custom transactions -/

namespace CustomSteps

/-- A goroutine has a token, which makes a success. -/
def holdsResult (s : CustomSteps) (n : ℕ) : Prop := s.verifies n = .giving

/-- A token reaches a goroutine. -/
def arises (s : CustomSteps) : CustomStep → Option ℕ
  | .receive n i =>
      match s.verifies n with
      | .receiving c => if s.chans.Offers i c then some n else none
      | _ => none
  | _ => none

/-- Where the results of a custom transaction are. -/
def results : Results episodes where
  holds := holdsResult
  arises := arises
  given_of hs g hg hres := by
    obtain ⟨-, hmove, rfl⟩ := step_eq_some.mp hs
    rcases given_move rfl hmove with hquiet | ⟨n, rfl, hn, hsent, -, -⟩
    · exact absurd ((hquiet g hg).2.symm.trans hres) Bool.false_ne_true
    · rw [hsent, List.mem_singleton] at hg
      subst hg
      exact .inl hn
  holds_of := by
    intro s s' a given hs n hn
    obtain ⟨-, hmove, -⟩ := step_eq_some.mp hs
    rcases verifies_move hmove n with hsame | hmoves
    · exact .inl (hsame.symm.trans hn)
    · rw [hn] at hmoves
      generalize hp : s.verifies n = p at hmoves
      cases hmoves with
      | receive hoffers =>
          right
          simp only [arises, hp]
          exact if_pos hoffers

end CustomSteps

/-! ## All kinds -/

/-- Where the results of each kind are. -/
def TxKind.results : (k : TxKind) → Results k.episodes
  | .password => PasswordSteps.results
  | .fingerprint => FingerprintSteps.results
  | .face => CameraVerify.results .face
  | .iris => CameraVerify.results .iris
  | .uKey => UKeySteps.results
  | .custom => CustomSteps.results

/-- **When no result of an ended attempt is given.** For every kind of transaction, in every run in
which no attempt has a result under way when its `end` returns, and no result arises for an attempt
that has ended, no success, failure or error of an ended attempt reaches the controller. -/
theorem no_late_result (k : TxKind) (type0 : AuthType) (lockState : LockState)
    (manager : UKey.Manager) {acts : List k.Step}
    (h : Along k.episodes.traced k.results.Timely (k.initial type0 lockState manager, .empty) acts) :
    Along k.episodes.traced k.episodes.InTime (k.initial type0 lockState manager, .empty) acts :=
  k.results.along_inTime _ h

/-- A password prompt is cancelled, and `end` returns before PAM has judged. -/
theorem no_late_result_cancelled :
    Along (TxKind.episodes .password).traced (TxKind.episodes .password).InTime
      (TxKind.initial .password .unlock .new .password, .empty)
      (PasswordSteps.startAlone 1 ++ [.prompt 1, .testId 1, .give 1, .readChan 1, .endTx 0,
        .endSession 0, .endGive 0, .endReset 0, .receiveClosed 1, .judge 1 false, .testId 1] :
        List PasswordStep) := by
  refine no_late_result .password .password .unlock .new ?_
  -- up to the status of `end` nothing ends, and no verdict arises
  repeat refine Results.along_timely_cons rfl rfl rfl ?_
  -- `end` returns, and the goroutine finds its prompt cancelled, with no verdict at hand
  refine (along_cons_of_eq rfl).mpr ⟨⟨?returns, nofun⟩,
    (along_cons_of_eq rfl).mpr ⟨⟨?finds, nofun⟩, ?_⟩⟩
  case returns | finds =>
    rintro n ⟨⟩ s' given hs ⟨k, v, next, -, hgiving, -⟩
    cases hs
    by_cases hk : k = 1
    · subst hk
      cases hgiving
    · repeat replace hgiving := (Function.update_of_ne hk _ _).symm.trans hgiving
      cases hgiving
  -- the verdict fails the test
  repeat refine Results.along_timely_cons rfl rfl rfl ?_
  trivial

/-- A prompt that is cancelled by a call of `end`, whose verdict PAM has tested before `end` resets
the session id. -/
def cancelledPrompt : List PasswordStep :=
  PasswordSteps.startAlone 1 ++ [.prompt 1, .testId 1, .give 1, .readChan 1] ++
    [.endTx 0, .endSession 0, .receiveClosed 1, .judge 1 false, .testId 1, .endGive 0, .endReset 0]

/-- A password prompt that is cancelled counts as a failed try, after `end` has returned. -/
theorem cancelled_prompt_fails :
    ¬ ∀ (k : TxKind) (type0 : AuthType) (lockState : LockState) (manager : UKey.Manager)
      (acts : List k.Step),
      Along k.episodes.traced k.episodes.InTime (k.initial type0 lockState manager, .empty) acts := by
  intro h
  have hgive := (h .password .password .unlock .new
    (cancelledPrompt ++ [PasswordStep.give 1] : List PasswordStep)).of_run rfl
  exact hgive _ _ rfl _ List.mem_cons_self rfl List.mem_cons_self

end LingmoAuthenticate.Session
