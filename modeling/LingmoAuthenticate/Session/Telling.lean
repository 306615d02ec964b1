import LingmoAuthenticate.Session.CameraMoves
import LingmoAuthenticate.Session.CustomMoves
import LingmoAuthenticate.Session.FingerprintMoves

/-!
# Which goroutines return without a word

A goroutine that returns has given its status before, or returns in silence. For custom
transactions, fingerprints and cameras the silent returns are these: from a channel that is closed,
with nothing that `verify` has returned, and from a driver that did not start.

* `CustomSteps.Telling` and its like: what is known of the attempts that an outcome was given for.
* `CustomSteps.Telling.reports_iff` and its like: an attempt that stops has told its outcome exactly
  where a silent return is one of an attempt that was asked to end.
-/

namespace LingmoAuthenticate.Session

open Lib AuthCommon

/-- Nothing quiet is an outcome. -/
theorem Quiet.outcomes {σ α : Type*} {m : Episodes σ α Given} {a : α} {sent : List Given}
    (h : Quiet (m.isOutcome a) sent) : m.outcomes a sent = [] :=
  Episodes.outcomes_eq_nil fun g hg => (h g hg).1

/-- A result is counted, and ends the verifying. -/
theorem VerifyStatus.told_of_isResult {v : VerifyStatus} (h : v.isResult = true) :
    (!ignored v.s) = true ∧ statusCodeToDevState v.s ≠ .verifying := by
  unfold isResult at h
  cases hv : v.s <;> rw [hv] at h <;> first
    | exact ⟨rfl, nofun⟩
    | cases h

/-! ## Custom transactions -/

/-- The start is under way. -/
def CustomStartPhase.busy : CustomStartPhase → Bool
  | .idle | .returned => false
  | _ => true

namespace CustomSteps

/-- A goroutine whose channel is closed is that of an attempt that was asked to end. -/
def Tells (x : CustomSteps × History) : CustomStep → Prop
  | .receiveClosed n => ∀ c, x.1.verifies n = .receiving c → x.1.chans.closed c = true →
      x.1.panicked = false → n ∈ x.2.requested
  | _ => True

/-- The attempts to come have not begun, a goroutine runs once its start has returned, and an outcome
is that of a goroutine which has returned. -/
structure Telling (x : CustomSteps × History) : Prop where
  fresh : ∀ n, x.1.attempts < n → x.1.starts n = .idle ∧ x.1.verifies n = .idle
  begun : ∀ n, x.1.verifies n ≠ .idle → x.1.starts n = .returned
  told : Episodes.Told (fun s n => s.verifies n = .returned) x

variable {s s' : CustomSteps} {n : ℕ} {a : CustomStep} {p q : CustomVerifyPhase}

/-- A goroutine that has not begun, or has returned, moves with a start only. -/
theorem VerifyMoves.start_of (h : s.VerifyMoves n a p q) (hp : p = .idle ∨ p = .returned) :
    a = .giveStarted n ∧ s.starts n = .unmarked := by
  rcases hp with rfl | rfl
  · cases h with
    | start hn => exact ⟨rfl, hn⟩
  · cases h with
    | start hn => exact ⟨rfl, hn⟩

/-- A start that is not under way moves when it makes its channel. -/
theorem StartMoves.authenticate_of {p q : CustomStartPhase} (h : s.StartMoves n a p q)
    (hp : p.busy = false) : a = .authenticate ∧ n = s.attempts + 1 := by
  cases h with
  | authenticate hn => exact ⟨rfl, hn⟩
  | _ => cases hp

/-- The attempts are counted on. -/
theorem attempts_move (hs : s.move a = some s') : s.attempts ≤ s'.attempts := by
  rcases (frame_move hs).1 with ⟨hsame, -⟩ | ⟨-, hnext, -⟩
  · exact hsame.ge
  · rw [hnext]
    exact Nat.le_succ _

variable {x x' : CustomSteps × History} {given : List Given}

/-- **The step lemma.** -/
theorem Telling.step (h : Telling x) (hs : episodes.traced x a = some (x', given)) :
    Telling x' := by
  obtain ⟨-, hmove, hsent⟩ := step_eq_some.mp (Episodes.traced_eq_some.mp hs).1
  have hmono := attempts_move hmove
  refine ⟨?_, ?_, h.told.step hs ?_ ?_⟩
  · intro m hm
    obtain ⟨hstart, hidle⟩ := h.fresh m (Nat.lt_of_le_of_lt hmono hm)
    constructor
    · rcases starts_move hmove m with hsame | hmoves
      · exact hsame.trans hstart
      · obtain ⟨rfl, hfirst⟩ := hmoves.authenticate_of (show (x.1.starts m).busy = false by
          rw [hstart]; rfl)
        rcases (frame_move hmove).1 with ⟨-, -, hno⟩ | ⟨-, hnext, -⟩
        · exact absurd rfl hno
        · rw [hnext] at hm
          exact absurd hm (by rw [hfirst]; exact Nat.lt_irrefl _)
    · rcases verifies_move hmove m with hsame | hmoves
      · exact hsame.trans hidle
      · obtain ⟨-, hunmarked⟩ := hmoves.start_of (.inl hidle)
        cases hstart.symm.trans hunmarked
  · intro m hm
    by_cases hidle : x.1.verifies m = .idle
    · rcases verifies_move hmove m with hsame | hmoves
      · exact absurd (hsame.trans hidle) hm
      · obtain ⟨rfl, -⟩ := hmoves.start_of (.inl hidle)
        exact (starts_giveStarted hmove).2
    · have hreturned := h.begun m hidle
      rcases starts_move hmove m with hsame | hmoves
      · exact hsame.trans hreturned
      · obtain ⟨-, hfirst⟩ := hmoves.authenticate_of (show (x.1.starts m).busy = false by
          rw [hreturned]; rfl)
        exact absurd (h.fresh m (by rw [hfirst]; exact Nat.lt_succ_self _)).2 hidle
  · intro m hm
    rcases verifies_move hmove m with hsame | hmoves
    · exact hsame.trans hm
    · obtain ⟨-, hunmarked⟩ := hmoves.start_of (.inr hm)
      have hreturned := h.begun m (by rw [hm]; rintro ⟨⟩)
      cases hreturned.symm.trans hunmarked
  · intro m hm
    rcases given_move rfl hmove with hquiet | ⟨k, rfl, hk, hgiven, -, hafter⟩
    · rw [hsent, Quiet.outcomes hquiet] at hm
      cases hm
    · obtain ⟨g, hg, -, rfl⟩ := Episodes.mem_outcomes.mp hm
      rw [hsent, hgiven, List.mem_singleton] at hg
      subst hg
      exact hafter

/-- A goroutine returns from a closed channel. -/
theorem stops_receiveClosed (s : CustomSteps) (n : ℕ) :
    (∃ c, s.verifies n = .receiving c ∧ s.chans.closed c = true ∧
        s.stops (.receiveClosed n) = some n) ∨
      (∀ c, s.verifies n = .receiving c → s.chans.closed c = false) ∧
        s.stops (.receiveClosed n) = none := by
  unfold stops
  dsimp only
  split
  · next c hn =>
      split_ifs with hclosed
      · exact .inl ⟨c, hn, hclosed, rfl⟩
      · refine .inr ⟨?_, rfl⟩
        intro c' hn'
        cases hn.symm.trans hn'
        simpa using hclosed
  · next hno => exact .inr ⟨fun c hn => absurd hn (hno c), rfl⟩

/-- **When a custom attempt that stops has told its outcome.** -/
theorem Telling.reports_iff (h : Telling x) (a : CustomStep) :
    episodes.Reports x a ↔ Tells x a := by
  have hfirst : ∀ {n p}, x.1.verifies n = p → p ≠ .returned → n ∉ x.2.counted :=
    fun hp hne hn => hne (hp.symm.trans (h.told _ hn))
  cases a with
  | receiveClosed n =>
      rcases stops_receiveClosed x.1 n with ⟨c, hn, hclosed, hstops⟩ | ⟨hopen, hstops⟩
      · have hsilent : ∀ s' given, episodes.step x.1 (.receiveClosed n) = some (s', given) →
            episodes.outcomes (.receiveClosed n) given = [] := by
          intro s' given hs
          obtain ⟨-, hmove, rfl⟩ := step_eq_some.mp hs
          rcases given_move rfl hmove with hquiet | ⟨k, hgive, -⟩
          · exact Quiet.outcomes hquiet
          · cases hgive
        rw [Episodes.reports_iff_of_silent (x := x) hstops (hfirst hn (by rintro ⟨⟩)) rfl hsilent]
        constructor
        · intro hreq c' hn' _ halive
          refine hreq ?_
          show (x.1.step (.receiveClosed n)).isSome = true
          simp [CustomSteps.step, halive, move, hn, hclosed]
        · intro htells hsome
          obtain ⟨r, hs⟩ := Option.isSome_iff_exists.mp hsome
          exact htells c hn hclosed (step_eq_some.mp hs).1
      · refine iff_of_true (Episodes.reports_of_stops_none hstops) ?_
        intro c hn hclosed
        cases (hopen c hn).symm.trans hclosed
  | give n =>
      refine iff_of_true ?_ trivial
      by_cases hn : x.1.verifies n = .giving
      · refine Episodes.reports_of_outcome (x := x) (if_pos hn) (hfirst hn (by rintro ⟨⟩)) ?_
        intro s' given hs
        obtain ⟨-, hmove, rfl⟩ := step_eq_some.mp hs
        simp only [move, hn, if_true, Option.some.injEq] at hmove
        subst hmove
        exact ⟨rfl, by rintro ⟨⟩⟩
      · exact Episodes.reports_of_stops_none (if_neg hn)
  | _ => exact iff_of_true (Episodes.reports_of_stops_none rfl) trivial

end CustomSteps

/-! ## Fingerprints -/

/-- A goroutine that has left `verify` has a success, a failure or an error, if anything. -/
def FingerPhase.Proper : FingerPhase → Prop
  | .left (some v) | .released (some v) => v.isResult = true
  | _ => True

/-- What `verify` returns is a success, a failure or an error. -/
theorem DoVerify.isResult_of_result {d : DoVerify} {v : VerifyStatus} (h : d.result = some v) :
    v.isResult = true := by
  unfold DoVerify.result at h
  split at h
  · cases h
    rfl
  · cases h
    rfl
  · split at h <;> cases h <;> rfl

namespace FingerprintSteps

/-- A goroutine that has nothing to give is that of an attempt that was asked to end. -/
def Tells (x : FingerprintSteps × History) : FingerprintStep → Prop
  | .give n => x.1.phases n = .released none → x.1.panicked = false → n ∈ x.2.requested
  | _ => True

/-- The goroutines of the attempts to come have not begun, what they hold are results, and an
outcome is that of a goroutine which has returned. -/
structure Telling (x : FingerprintSteps × History) : Prop where
  fresh : ∀ n, x.1.attempts < n → x.1.phases n = .idle
  proper : ∀ n, (x.1.phases n).Proper
  told : Episodes.Told (fun s n => s.phases n = .returned) x

variable {s : FingerprintSteps} {n : ℕ} {a : FingerprintStep} {p q : FingerPhase}

/-- What `verify` returns is proper. -/
theorem proper_left (d : DoVerify) : (FingerPhase.left d.result).Proper := by
  rcases hd : d.result with _ | v
  · trivial
  · exact DoVerify.isResult_of_result hd

theorem FingerMoves.proper (h : s.FingerMoves n a p q) (hp : p.Proper) : q.Proper := by
  cases h with
  | verifyErr | stopVerify => exact proper_left _
  | closeRelease =>
      next r =>
      cases r
      · trivial
      · exact hp
  | _ => trivial

/-- A goroutine that has not begun, or has returned, moves with a start only. -/
theorem FingerMoves.start_of (h : s.FingerMoves n a p q) (hp : p = .idle ∨ p = .returned) :
    n = s.attempts + 1 ∧ a = .claim none := by
  rcases hp with rfl | rfl
  · cases h with
    | start hn => exact ⟨hn, rfl⟩
  · cases h with
    | start hn => exact ⟨hn, rfl⟩

variable {x x' : FingerprintSteps × History} {given : List Given}

/-- **The step lemma.** -/
theorem Telling.step (h : Telling x) (hs : episodes.traced x a = some (x', given)) :
    Telling x' := by
  obtain ⟨-, hmove, hsent⟩ := step_eq_some.mp (Episodes.traced_eq_some.mp hs).1
  have hmono := attempts_move hmove
  refine ⟨?_, ?_, h.told.step hs ?_ ?_⟩
  · intro m hm
    have hidle := h.fresh m (Nat.lt_of_le_of_lt hmono hm)
    rcases phases_move hmove m with hsame | hmoves
    · exact hsame.trans hidle
    · obtain ⟨hfirst, rfl⟩ := hmoves.start_of (.inl hidle)
      rw [attempts_claim hmove] at hm
      exact absurd hm (by rw [hfirst]; exact Nat.lt_irrefl _)
  · intro m
    rcases phases_move hmove m with hsame | hmoves
    · rw [hsame]
      exact h.proper m
    · exact hmoves.proper (h.proper m)
  · intro m hm
    rcases phases_move hmove m with hsame | hmoves
    · exact hsame.trans hm
    · obtain ⟨hfirst, -⟩ := hmoves.start_of (.inr hm)
      have hidle := h.fresh m (by rw [hfirst]; exact Nat.lt_succ_self _)
      cases hidle.symm.trans hm
  · intro m hm
    rcases given_move rfl hmove with hquiet | ⟨k, v, rfl, hk, hgiven, -, hafter⟩
    · rw [hsent, Quiet.outcomes hquiet] at hm
      cases hm
    · obtain ⟨g, hg, -, rfl⟩ := Episodes.mem_outcomes.mp hm
      rw [hsent, hgiven, List.mem_singleton] at hg
      subst hg
      exact hafter

/-- A goroutine returns. -/
theorem stops_give (s : FingerprintSteps) (n : ℕ) :
    (∃ r, s.phases n = .released r ∧ s.stops (.give n) = some n) ∨
      (∀ r, s.phases n ≠ .released r) ∧ s.stops (.give n) = none := by
  unfold stops
  dsimp only
  split
  · next r hn => exact .inl ⟨r, hn, rfl⟩
  · next hno => exact .inr ⟨hno, rfl⟩

/-- **When a fingerprint attempt that stops has told its outcome.** -/
theorem Telling.reports_iff (h : Telling x) (a : FingerprintStep) :
    episodes.Reports x a ↔ Tells x a := by
  have hfirst : ∀ {n p}, x.1.phases n = p → p ≠ .returned → n ∉ x.2.counted :=
    fun hp hne hn => hne (hp.symm.trans (h.told _ hn))
  cases a with
  | give n =>
      rcases stops_give x.1 n with ⟨r, hn, hstops⟩ | ⟨hno, hstops⟩
      · rcases r with _ | v
        · have hsilent : ∀ s' given, episodes.step x.1 (.give n) = some (s', given) →
              episodes.outcomes (.give n) given = [] := by
            intro s' given hs
            obtain ⟨-, hmove, rfl⟩ := step_eq_some.mp hs
            simp only [move, hn, Option.some.injEq] at hmove
            subst hmove
            rfl
          rw [Episodes.reports_iff_of_silent (x := x) hstops (hfirst hn (by rintro ⟨⟩)) rfl hsilent]
          constructor
          · intro hreq _ halive
            refine hreq ?_
            show (x.1.step (.give n)).isSome = true
            simp [FingerprintSteps.step, halive, move, hn]
          · intro htells hsome
            obtain ⟨r, hs⟩ := Option.isSome_iff_exists.mp hsome
            exact htells hn (step_eq_some.mp hs).1
        · refine iff_of_true ?_ fun hnone => by cases hn.symm.trans hnone
          refine Episodes.reports_of_outcome (x := x) hstops (hfirst hn (by rintro ⟨⟩)) ?_
          intro s' given hs
          obtain ⟨-, hmove, rfl⟩ := step_eq_some.mp hs
          have hresult : v.isResult = true := by
            have hproper := h.proper n
            rw [hn] at hproper
            exact hproper
          obtain ⟨hcounted, hidle⟩ := VerifyStatus.told_of_isResult hresult
          simp only [move, hn, Option.some.injEq] at hmove
          subst hmove
          exact ⟨Episodes.outcomes_singleton (m := episodes) (g := ⟨n, v⟩) hcounted, hidle⟩
      · exact iff_of_true (Episodes.reports_of_stops_none hstops)
          fun hnone => absurd hnone (hno none)
  | _ => exact iff_of_true (Episodes.reports_of_stops_none rfl) trivial

end FingerprintSteps

/-! ## Cameras -/

namespace CameraVerify

variable {c : CameraType}

/-- A goroutine whose driver did not start is that of an attempt that was asked to end. -/
def Tells (x : CameraVerify c × History) : CameraVerifyStep → Prop
  | .finish => x.1.phase = some (.left none) → x.1.attempts ∈ x.2.refused →
      x.1.attempts ∈ x.2.requested
  | _ => True

/-- The attempt has given what it gives in its loop, or has none. -/
def Over (s : CameraVerify c) (n : ℕ) : Prop :=
  n < s.attempts ∨ n = s.attempts ∧ (s.phase = none ∨ s.phase = some (.left none))

/-- Only what is over was counted or refused; `quit` is closed by an `end`; what `verify` returns is
an error; and where it returns nothing, the driver did not start, or an `end` was asked for, or the
loop has given its status. -/
structure Telling (x : CameraVerify c × History) : Prop where
  told : Episodes.Told Over x
  refused : ∀ n ∈ x.2.refused, Over x.1 n
  quit : x.1.quit = some true → x.1.attempts ∈ x.2.requested
  proper : ∀ v, x.1.phase = some (.left (some v)) → v.isResult = true
  left : x.1.phase = some (.left none) →
    x.1.attempts ∈ x.2.refused ∧ x.1.attempts ∉ x.2.counted ∨
      x.1.attempts ∉ x.2.refused ∧ (x.1.attempts ∈ x.2.requested ∨
        x.2.counted.count x.1.attempts = 1 ∧ x.1.devState ≠ .verifying)

variable {s s' : CameraVerify c} {a : CameraVerifyStep} {v : VerifyStatus}

/-- The status with which the loop leaves is counted, and ends the verifying. -/
theorem told_of_leaves (h : s.leaves a = some v) :
    ignored v.s = false ∧ statusCodeToDevState v.s ≠ .verifying := by
  have hdone : ∀ code, ignored (c.sendDoneResult code) = false ∧
      statusCodeToDevState (c.sendDoneResult code) ≠ .verifying := by
    intro code
    cases c
    · rw [CameraType.sendDoneResult]
      cases FaceVerifyStatus.ofCode code <;> exact ⟨rfl, by rintro ⟨⟩⟩
    · rw [CameraType.sendDoneResult]
      cases IrisVerifyStatus.ofCode code <;> exact ⟨rfl, by rintro ⟨⟩⟩
  unfold leaves at h
  split at h
  · split at h
    · next restart id hphase =>
        unfold verdict at h
        dsimp only at h
        split_ifs at h
        · cases h
          exact hdone _
        · obtain ⟨msg, -, rfl⟩ := Option.map_eq_some_iff.mp h
          exact ⟨rfl, by rintro ⟨⟩⟩
    · cases h
  · split at h <;> cases h
    exact ⟨rfl, by rintro ⟨⟩⟩
  · cases h

/-- Outside a lock notification, a status that is counted is an outcome. -/
theorem isOutcome_of_counted {n : ℕ} (ha : ∀ l, a ≠ .setLockState l) (hv : ignored v.s = false) :
    isOutcome c a ⟨n, v⟩ = true := by
  have hcounted : (!ignored v.s) = true := by rw [hv, Bool.not_false]
  unfold isOutcome
  split
  · next l => exact absurd rfl (ha l)
  · cases c <;> exact hcounted

/-- An attempt that is over stays so. -/
theorem Over.move {n : ℕ} (h : s.Over n) (hs : s.move a = some s') : s'.Over n := by
  rcases (frame_move hs).1 with hsame | ⟨hnext, -, -⟩
  · rcases h with h | ⟨rfl, h⟩
    · exact .inl (hsame ▸ h)
    · refine .inr ⟨hsame.symm, ?_⟩
      rcases phase_move hs with hphase | hmoves
      · rwa [hphase]
      · generalize s.phase = p at hmoves h
        generalize s'.phase = q at hmoves ⊢
        rcases h with rfl | rfl
        · cases hmoves
          exact absurd (hsame.symm.trans (attempts_claim hs)) (Nat.lt_succ_self _).ne
        · cases hmoves with
          | finish => exact .inl rfl
  · refine .inl ?_
    rw [hnext]
    rcases h with h | ⟨rfl, -⟩
    · exact Nat.lt_succ_of_lt h
    · exact Nat.lt_succ_self _

/-- The last attempt is not over while its goroutine runs, or has an error to give. -/
theorem not_over {p : CameraPhase} (hp : s.phase = some p) (hne : p ≠ .left none) :
    ¬ s.Over s.attempts := by
  rintro (h | ⟨-, h | h⟩)
  · exact Nat.lt_irrefl _ h
  · cases hp.symm.trans h
  · exact hne (Option.some.inj (hp.symm.trans h))

variable {x x' : CameraVerify c × History} {given : List Given}

/-- What a step gives an outcome of is over. -/
theorem over_of_outcome (hmove : move { s with sent := [] } a = some s') {n : ℕ}
    (hn : n ∈ (episodes c).outcomes a s'.sent) : s'.Over n := by
  rcases given_move rfl hmove with ⟨hquiet, -⟩ | ⟨v, hgiven, -, hfrom⟩
  · rw [Quiet.outcomes (m := episodes c) hquiet] at hn
    cases hn
  · obtain ⟨g, hg, -, rfl⟩ := Episodes.mem_outcomes.mp hn
    rw [hgiven, List.mem_singleton] at hg
    subst hg
    have hafter : s'.phase = none ∨ s'.phase = some (.left none) := by
      rcases hfrom with ⟨-, -, hafter⟩ | ⟨-, -, hafter⟩
      · exact .inr hafter
      · exact .inl hafter
    rcases (frame_move hmove).1 with hsame | ⟨-, -, hclaimed⟩
    · exact .inr ⟨hsame.symm, hafter⟩
    · rcases hafter with hafter | hafter <;> cases hclaimed.symm.trans hafter

/-- What a step refuses is over. -/
theorem over_of_refuses (hmove : move { s with sent := [] } a = some s') {n : ℕ}
    (hn : s.refuses a = some n) : s'.Over n := by
  unfold refuses at hn
  split at hn
  · split at hn <;> cases hn
    next id hphase =>
      simp only [move, verifyStart, hphase, Option.some.injEq] at hmove
      subst hmove
      exact .inr ⟨rfl, .inr rfl⟩
  · cases hn

/-- **The step lemma.** -/
theorem Telling.step (h : Telling x) (hs : (episodes c).traced x a = some (x', given)) :
    Telling x' := by
  obtain ⟨hs₁, hh⟩ := Episodes.traced_eq_some.mp hs
  obtain ⟨hmove, hsent⟩ := step_eq_some.mp hs₁
  obtain ⟨hattempts, hquit, hdev⟩ := frame_move hmove
  have hrequested : ∀ n, n ∈ x.2.requested → n ∈ x'.2.requested := by
    intro n hn
    rw [hh]
    exact List.mem_append_right _ hn
  have hkeep : ∀ n, Over x.1 n → Over x'.1 n := fun n hn =>
    Over.move (s := { x.1 with sent := [] }) hn hmove
  refine ⟨h.told.step hs hkeep fun n hn => over_of_outcome hmove (hsent ▸ hn), ?_, ?_, ?_, ?_⟩
  · intro n hn
    rw [hh] at hn
    rcases List.mem_append.mp hn with hn | hn
    · exact over_of_refuses hmove (Option.mem_toList.mp hn)
    · exact hkeep n (h.refused n hn)
  · intro hq
    rcases hattempts with hsame | ⟨-, hopen, -⟩
    · rw [hsame]
      rcases hquit hq with hq | hreq
      · exact hrequested _ (h.quit hq)
      · rw [hh]
        exact List.mem_append_left _ (Option.mem_toList.mpr hreq)
    · cases hopen.symm.trans hq
  · intro v hv
    rcases phase_move hmove with hsame | hmoves
    · exact h.proper v (hsame.symm.trans hv)
    · rw [hv] at hmoves
      generalize x.1.phase = p at hmoves
      cases hmoves with
      | noDriver | genErr => rfl
  · intro hleft
    have hsame : x'.1.attempts = x.1.attempts := by
      rcases hattempts with hsame | ⟨-, -, hclaimed⟩
      · exact hsame
      · cases hclaimed.symm.trans hleft
    rw [hsame]
    have hcounted : x'.2.counted = (episodes c).outcomes a given ++ x.2.counted := by rw [hh]; rfl
    have hrefused : x'.2.refused = (x.1.refuses a).toList ++ x.2.refused := by rw [hh]; rfl
    -- what the goroutine was before has neither been counted nor refused
    have hfirst : ∀ {p}, x.1.phase = some p → p ≠ .left none →
        x.1.attempts ∉ x.2.counted ∧ x.1.attempts ∉ x.2.refused :=
      fun hp hne => ⟨fun hn => not_over hp hne (h.told _ hn),
        fun hn => not_over hp hne (h.refused _ hn)⟩
    rcases phase_move hmove with hphase | hmoves
    · have hwas : x.1.phase = some (.left none) := hphase.symm.trans hleft
      have hnone : x.1.refuses a = none := by
        unfold refuses
        rw [hwas]
        split <;> rfl
      have hquiet : (episodes c).outcomes a given = [] := by
        rcases given_move rfl hmove with ⟨hquiet, -⟩ | ⟨v, -, -, hfrom⟩
        · rw [hsent]
          exact Quiet.outcomes hquiet
        · rcases hfrom with ⟨⟨id, hloop⟩, -, -⟩ | ⟨-, hresult, -⟩
          · cases hwas.symm.trans hloop
          · cases hwas.symm.trans hresult
      rw [hcounted, hrefused, hnone, hquiet]
      rcases h.left hwas with hrefuse | ⟨hstarted, hreq | ⟨hcount, hidle⟩⟩
      · exact .inl hrefuse
      · exact .inr ⟨hstarted, .inl (hrequested _ hreq)⟩
      · exact .inr ⟨hstarted, .inr ⟨hcount, fun hv => hidle (hdev hwas hv)⟩⟩
    · rw [hleft] at hmoves
      generalize hp : x.1.phase = p at hmoves
      cases hmoves with
      | refuse =>
          left
          rw [hcounted, hrefused]
          refine ⟨List.mem_append_left _ (Option.mem_toList.mpr ?_), ?_⟩
          · simp only [refuses, hp]
          · have hquiet : (episodes c).outcomes (.verifyStart false) given = [] := by
              rcases given_move rfl hmove with ⟨hquiet, -⟩ | ⟨v, -, -, hfrom⟩
              · rw [hsent]
                exact Quiet.outcomes hquiet
              · rcases hfrom with ⟨-, hleaves, -⟩ | ⟨hfinish, -, -⟩
                · cases hleaves
                · cases hfinish
            rw [hquiet]
            exact (hfirst hp (by rintro ⟨⟩)).1
      | quit hq =>
          right
          rw [hrefused]
          exact ⟨(hfirst hp (by rintro ⟨⟩)).2, .inl (hrequested _ (h.quit hq))⟩
      | leave hleaves =>
          next id v =>
          rw [← hp] at hleaves
          have hnone : x.1.refuses a = none := by
            unfold refuses
            rw [hp]
            split <;> rfl
          have hlock : ∀ l, a ≠ .setLockState l := by
            rintro l rfl
            cases hleaves
          right
          rw [hcounted, hrefused, hnone]
          refine ⟨(hfirst hp (by rintro ⟨⟩)).2, .inr ?_⟩
          rcases given_move rfl hmove with ⟨-, hno⟩ | ⟨w, hgiven, hafter, hfrom⟩
          · cases hno.symm.trans hleaves
          · rcases hfrom with ⟨-, hw, -⟩ | ⟨-, hresult, -⟩
            · obtain ⟨hignored, hidle⟩ := told_of_leaves hw
              have hout := isOutcome_of_counted (c := c) (n := x.1.attempts) hlock hignored
              rw [hsent, hgiven, Episodes.outcomes_singleton (m := episodes c) hout, hafter]
              refine ⟨?_, hidle⟩
              have hzero := List.count_eq_zero_of_not_mem (hfirst hp (by rintro ⟨⟩)).1
              exact (List.count_cons_self ..).trans (congrArg (· + 1) hzero)
            · cases hp.symm.trans hresult

/-- The goroutine returns. -/
theorem stops_finish (s : CameraVerify c) :
    (∃ r, s.phase = some (.left r) ∧ s.stops .finish = some s.attempts) ∨
      (∀ r, s.phase ≠ some (.left r)) ∧ s.stops .finish = none := by
  unfold stops
  dsimp only
  split
  · next r hphase => exact .inl ⟨r, hphase, rfl⟩
  · next hno => exact .inr ⟨hno, rfl⟩

/-- **When a face or iris attempt that stops has told its outcome.** -/
theorem Telling.reports_iff (h : Telling x) (a : CameraVerifyStep) :
    (episodes c).Reports x a ↔ Tells x a := by
  cases a with
  | finish =>
      rcases stops_finish x.1 with ⟨r, hphase, hstops⟩ | ⟨hno, hstops⟩
      · rcases r with _ | v
        · -- nothing more is given
          have hstep : x.1.step .finish = some ({ x.1 with sent := [], phase := none }, []) := by
            simp only [CameraVerify.step, move, hphase, Option.map_some]
          have hsilent : ∀ s' given, (episodes c).step x.1 .finish = some (s', given) →
              (episodes c).outcomes .finish given = [] := by
            intro s' given hs
            cases hstep.symm.trans hs
            rfl
          rcases h.left hphase with ⟨hrefuse, hfirst⟩ | ⟨hstarted, htold⟩
          · rw [Episodes.reports_iff_of_silent (x := x) hstops hfirst rfl hsilent]
            constructor
            · intro hreq _ _
              exact hreq (Option.isSome_iff_exists.mpr ⟨_, hstep⟩)
            · intro htells _
              exact htells hphase hrefuse
          · refine iff_of_true ?_ fun _ hrefuse => absurd hrefuse hstarted
            intro x' given hs n hn hnot
            obtain ⟨hs, hh⟩ := Episodes.traced_eq_some.mp hs
            cases hstops.symm.trans hn
            obtain ⟨hstate, hgiven⟩ := Prod.mk.inj (Option.some.inj (hstep.symm.trans hs))
            rcases htold with hreq | ⟨hcount, hidle⟩
            · rw [hh] at hnot
              exact absurd (List.mem_append_right _ hreq) hnot
            · rw [hh, ← hgiven]
              refine ⟨hcount, ?_⟩
              rw [← hstate]
              exact hidle
        · refine iff_of_true ?_ fun hnone => by cases hphase.symm.trans hnone
          have hfirst : x.1.attempts ∉ x.2.counted :=
            fun hn => not_over hphase (by rintro ⟨⟩) (h.told _ hn)
          refine Episodes.reports_of_outcome (x := x) hstops hfirst ?_
          intro s' given hs
          obtain ⟨hcounted, hidle⟩ := VerifyStatus.told_of_isResult (h.proper v hphase)
          have hstep : x.1.step .finish = some
              ({ give (c := c) { x.1 with sent := [] } v with phase := none },
                [⟨x.1.attempts, v⟩]) := by
            simp only [CameraVerify.step, move, hphase, Option.map_some]
            rfl
          cases hstep.symm.trans hs
          refine ⟨Episodes.outcomes_singleton (m := episodes c) ?_, hidle⟩
          exact isOutcome_of_counted (c := c) (a := .finish) (fun _ => by rintro ⟨⟩)
            (by simpa using hcounted)
      · exact iff_of_true (Episodes.reports_of_stops_none hstops)
          fun hnone => absurd hnone (hno none)
  | _ => exact iff_of_true (Episodes.reports_of_stops_none rfl) trivial

end CameraVerify

/-! ## New transactions -/

theorem CustomSteps.telling_new (lockState : LockState) : Telling (new lockState, .empty) :=
  ⟨fun _ _ => ⟨rfl, rfl⟩, fun _ h => absurd rfl h, fun _ h => nomatch h⟩

theorem FingerprintSteps.telling_new (lockState : LockState) : Telling (new lockState, .empty) :=
  ⟨fun _ _ => rfl, fun _ => trivial, fun _ h => nomatch h⟩

theorem CameraVerify.telling_new (c : CameraType) (lockState : LockState) :
    Telling (new c lockState, .empty) :=
  ⟨fun _ h => (nomatch h), fun _ h => (nomatch h), fun h => (nomatch h), fun _ h => (nomatch h),
    fun h => (nomatch h)⟩

end LingmoAuthenticate.Session
