import LingmoAuthenticate.Lib.Throttle
import LingmoAuthenticate.Limits.Allowed

/-!
# A limit is a throttle

Seen from outside, a limit counts the tries that are left until the last one closes it, and a lock
that is over leaves a static limit all its tries and a dynamic one a single try.

* `Limit.phase` is the phase of a limit, and `Limit.throttle` its throttle.
* `Limit.Throttled` is what the operations keep of a limit: the configuration, the range, and that a
  static limit is not left without a lock.
* `allow_phase`, `fail_phase`, `reset_phase` and `resetAll_phase`: what each operation does to the
  phase; `allow_steps`, `fail_steps`, `reset_step` and `resetAll_step`: each is one or two steps of
  the throttle.
-/

namespace LingmoAuthenticate.Limits

open Lib AuthCommon

namespace Limit

/-! ## The throttle of a limit -/

/-- The tries that a lock leaves when it is over. -/
def refill (l : Limit) : ℕ := if l.dynamicLimit then 1 else l.maxTries.toNat

/-- No lock of the limit is shorter, in seconds. -/
def LocksFor (l : Limit) (secs : ℤ) : Prop :=
  (l.dynamicLimit = false → l.unlockSecs < 0 ∨ secs ≤ l.unlockSecs) ∧
    (l.dynamicLimit = true → ∀ s ∈ l.dynamicLimitUnlockSecs, secs ≤ s)

/-- The throttle of a limit. -/
def throttle (l : Limit) (beside : ℕ) (secs : ℤ) : Throttle where
  first := l.maxTries.toNat
  refill := l.refill
  beside := beside
  lock := second * secs

/-- The phase of a limit; a limit whose lock was taken back has one try. -/
def phase (l : Limit) : Throttle.Phase :=
  if l.numFailures < l.maxTries then .opened (l.maxTries - l.numFailures).toNat
  else if l.lockAt = Time.zero then .opened 1
  else .closed l.lockAt

/-- A limit of the range without overflow, with the configuration of `l₀`, that counts from zero
and, when it is static, has a lock where it has no tries. -/
structure Throttled (l₀ l : Limit) (now : ℤ) : Prop where
  range : l₀.InRange
  config : SameConfig l₀ l
  steady : l.Steady now
  nonneg : 0 ≤ l.numFailures
  locked : l.dynamicLimit = false → l.maxTries ≤ l.numFailures → l.lockAt ≠ Time.zero

section throttled

variable {l₀ l l' : Limit} {now now' secs : ℤ}

theorem Throttled.inRange (h : l₀.Throttled l now) : l.InRange := h.range.congr h.config

theorem Throttled.mono (h : l₀.Throttled l now) (hle : now ≤ now') : l₀.Throttled l now' :=
  ⟨h.range, h.config, h.steady.mono hle, h.nonneg, h.locked⟩

/-- A lock at an instant in range is one. -/
theorem zero_ne_wallClock (hw : WallClock now) : now ≠ Time.zero := by
  rintro rfl
  exact absurd hw (by decide)

/-- The throttle depends on the configuration only. -/
theorem refill_congr (h : SameConfig l l') : l'.refill = l.refill := by
  unfold refill
  rw [h.2.2.2.1, h.2.2.1]

theorem LocksFor.congr (hd : l₀.LocksFor secs) (h : SameConfig l₀ l) : l.LocksFor secs := by
  obtain ⟨-, -, -, hdyn, hlist, hunlock⟩ := h
  constructor
  · intro hs
    rw [hdyn] at hs
    rw [hunlock hs]
    exact hd.1 hs
  · intro hs
    rw [hdyn] at hs
    rw [hlist]
    exact hd.2 hs

/-- The duration of a lock is one of the configuration. -/
theorem LocksFor.le_lockSecs (hd : l.LocksFor secs) (hr : l.InRange) (hpos : 0 ≤ l.lockSecs) :
    secs ≤ l.lockSecs := by
  cases hdyn : l.dynamicLimit
  · have hs : l.lockSecs = l.unlockSecs := by simp [lockSecs, hdyn]
    rw [hs] at hpos ⊢
    exact (hd.1 hdyn).resolve_left (by omega)
  · obtain ⟨hne, -⟩ := hr.dynamic hdyn
    have hlen : 0 < l.dynamicLimitUnlockSecs.length := List.length_pos_iff.mpr hne
    unfold lockSecs
    rw [if_pos hdyn, List.getD_eq_getElem _ _ (by omega)]
    exact hd.2 hdyn _ (List.getElem_mem _)

/-! ## The operations keep the limit throttled -/

/-- The counter of a limit never falls below zero. -/
theorem reset_nonneg (h : 0 ≤ l.numFailures) : 0 ≤ l.reset.numFailures := by
  rw [reset_numFailures]
  split_ifs
  · exact h
  · exact le_rfl

/-- Taking the lock back forgets the failures of a static limit. -/
theorem Throttled.reset (h : l₀.Throttled l now) (hw : WallClock now) :
    l₀.Throttled l.reset now := by
  refine ⟨h.range, h.config.trans (reset_sameConfig l), (h.steady.reset hw).1,
    reset_nonneg h.nonneg, ?_⟩
  intro hs hn
  rw [reset_dynamicLimit] at hs
  have hm := h.inRange.maxTries_pos
  rw [reset_maxTries, reset_numFailures, hs] at hn
  exact absurd hn (not_le.mpr hm)

theorem Throttled.resetAll (h : l₀.Throttled l now) (hw : WallClock now) :
    l₀.Throttled l.resetAll now := by
  have hm := h.inRange.maxTries_pos
  have hnone : l₀.Throttled { l with numFailures := 0 } now :=
    ⟨h.range, h.config, ⟨h.steady.config.imp id fun hr => hr.congr ⟨rfl, rfl, rfl, rfl, rfl,
      fun _ => rfl⟩, h.steady.lockAt⟩, le_rfl, fun _ hn => absurd hn (not_le.mpr hm)⟩
  exact hnone.reset hw

theorem Throttled.tryReset (h : l₀.Throttled l now) (hw : WallClock now) :
    l₀.Throttled (l.tryReset now) now := by
  rcases tryReset_eq_or l now with heq | heq <;> rw [heq]
  · exact h
  · exact h.reset hw

theorem Throttled.refresh (h : l₀.Throttled l now) (hw : WallClock now)
    (hl : l.refresh = some l') : l₀.Throttled l' now := by
  obtain ⟨hn, hat, -⟩ := refresh_same hl
  have hs := refresh_sameConfig hl
  refine ⟨h.range, h.config.trans hs, h.steady.congr hw hs (.inl hat), hn ▸ h.nonneg, ?_⟩
  rw [hs.2.2.2.1, hs.2.2.1, hn, hat]
  exact h.locked

theorem Throttled.allow (h : l₀.Throttled l now) (hw : WallClock now) {r : Bool × ℤ}
    (ha : l.allow now = some (r, l')) : l₀.Throttled l' now := by
  have hm := h.inRange.maxTries_pos
  obtain ⟨l₁, h₁, rfl, -⟩ := (allow_eq_some (by omega)).mp ha
  exact (h.refresh hw h₁).tryReset hw

/-- What a failure leaves. -/
theorem fail_of_pos (hm : 0 < l.maxTries) : l.fail now =
    if (l.tryReset now).maxTries ≤ (l.tryReset now).numFailures + 1 then
      { l.tryReset now with
        lastFailAt := now, numFailures := (l.tryReset now).numFailures + 1, lockAt := now }
    else { l.tryReset now with
        lastFailAt := now, numFailures := (l.tryReset now).numFailures + 1 } := by
  unfold fail
  rw [if_neg (by omega)]

theorem Throttled.fail (h : l₀.Throttled l now) (hw : WallClock now) :
    l₀.Throttled (l.fail now) now := by
  have ht := h.tryReset hw
  refine ⟨h.range, h.config.trans (fail_sameConfig l now), h.steady.fail hw, ?_, ?_⟩
  · have hn := ht.nonneg
    rw [fail_of_pos h.inRange.maxTries_pos]
    split_ifs
    · dsimp only
      omega
    · dsimp only
      omega
  · intro hs hn
    rw [(fail_locked h.inRange.maxTries_pos hn).lockAt]
    exact zero_ne_wallClock hw

/-! ## The operations are steps of the throttle -/

/-- Forgetting the failures of a static limit, or the lock of a dynamic one. -/
theorem Throttled.phase_reset_of_le (h : l₀.Throttled l now) (hn : l.maxTries ≤ l.numFailures) :
    l.reset.phase = .opened l.refill := by
  have hm := h.inRange.maxTries_pos
  unfold phase refill
  rw [reset_numFailures, reset_maxTries, reset_lockAt]
  cases hd : l.dynamicLimit
  · simp [hm]
  · simp [not_lt.mpr hn]

/-- The tries after a lock are some, and no more than those after a renewal. -/
theorem InRange.refill_pos (h : l.InRange) : 0 < l.refill ∧ l.refill ≤ l.maxTries.toNat := by
  have hm := h.maxTries_pos
  unfold refill
  split_ifs <;> omega

/-- A limit with tries left. -/
theorem phase_of_lt (hn : l.numFailures < l.maxTries) :
    l.phase = .opened (l.maxTries - l.numFailures).toNat := if_pos hn

/-- A limit with a lock. -/
theorem phase_of_le (hn : l.maxTries ≤ l.numFailures) (hat : l.lockAt ≠ Time.zero) :
    l.phase = .closed l.lockAt := by
  unfold phase
  rw [if_neg (by omega), if_neg hat]

/-- **A question** leaves the phase, or finds the lock over; a try is allowed in an open phase
only. -/
theorem Throttled.allow_phase (h : l₀.Throttled l now) (hd : l₀.LocksFor secs)
    (hw : WallClock now) {r : Bool × ℤ} (ha : l.allow now = some (r, l')) :
    (l'.phase = l.phase ∨ ∃ since, l.phase = .closed since ∧ since + second * secs ≤ now ∧
      l'.phase = .opened l.refill) ∧ (r.1 = true → ∃ left, l'.phase = .opened left) := by
  have hr := h.inRange
  have hm := hr.maxTries_pos
  obtain ⟨l₁, h₁, rfl, rfl⟩ := (allow_eq_some (by omega)).mp ha
  by_cases hn : l.numFailures < l.maxTries
  · -- tries are left
    obtain ⟨hn₁, hat₁, -⟩ := refresh_same h₁
    have hm₁ : l₁.maxTries = l.maxTries := (refresh_sameConfig h₁).2.2.1
    rw [tryReset_of_lt (by omega), phase_of_lt hn, phase_of_lt (by omega), hn₁, hm₁]
    exact ⟨.inl rfl, fun _ => ⟨_, rfl⟩⟩
  have hn' : l.maxTries ≤ l.numFailures := not_lt.mp hn
  obtain rfl := Option.some.inj (h₁.symm.trans (hr.refresh_of_failures hn'))
  have hsame : (l.setUnlockSecs l.lockSecs).phase = l.phase := rfl
  have hstays : (l.setUnlockSecs l.lockSecs).answer.1 = false := by
    rw [answer_of_le (l := l.setUnlockSecs l.lockSecs) hn' hr.lockSecs_ne_zero]
  by_cases hpos : 0 ≤ l.lockSecs
  · have hb := hr.lockSecs_bounds (by have := hr.lockSecs_ne_zero; omega)
    rw [tryReset_eq (l := l.setUnlockSecs l.lockSecs) hm hn' hpos hb.2
      (h.steady.lockAt.imp id And.left) hw]
    split_ifs with hover
    · -- the lock is over, or was taken back
      have hreset : (l.setUnlockSecs l.lockSecs).reset.phase = .opened l.refill :=
        (h.refresh hw h₁).phase_reset_of_le hn'
      refine ⟨?_, fun _ => ⟨_, hreset⟩⟩
      by_cases hat : l.lockAt = Time.zero
      · left
        have hdyn : l.dynamicLimit = true := by
          by_contra hs
          exact h.locked (by simpa using hs) hn' hat
        rw [hreset, refill, if_pos hdyn, phase, if_neg hn, if_pos hat]
      · right
        refine ⟨l.lockAt, phase_of_le hn' hat, ?_, hreset⟩
        have hsecs := (hd.congr h.config).le_lockSecs hr hpos
        have hlt : second * l.lockSecs < now - l.lockAt := hover.resolve_left hat
        unfold second at hlt ⊢
        omega
    · exact ⟨.inl hsame, fun hans => absurd hans (by rw [hstays]; decide)⟩
  · rw [tryReset_of_neg (l := l.setUnlockSecs l.lockSecs) (by simpa using hpos)]
    exact ⟨.inl hsame, fun hans => absurd hans (by rw [hstays]; decide)⟩

/-- The phase after a failure, by what it found of the lock. -/
theorem fail_phase_eq (hm : 0 < l.maxTries) (hw : WallClock now) : (l.fail now).phase =
    if l.maxTries ≤ (l.tryReset now).numFailures + 1 then .closed now
    else .opened (l.maxTries - ((l.tryReset now).numFailures + 1)).toNat := by
  have hmt : (l.tryReset now).maxTries = l.maxTries := (tryReset_sameConfig l now).2.2.1
  rw [fail_of_pos hm, hmt]
  split_ifs with hlast
  · exact phase_of_le (hmt.symm ▸ hlast) (zero_ne_wallClock hw)
  · rw [phase_of_lt (by dsimp only; omega)]
    dsimp only
    rw [hmt]

/-- **A failure** takes a try or the last one, comes too late, or finds the lock over and takes one
of the new tries. -/
theorem Throttled.fail_phase (h : l₀.Throttled l now) (hd : l₀.LocksFor secs)
    (hw : WallClock now) :
    (∃ left, (l.phase = .opened (left + 1) ∨ ∃ since, l.phase = .closed since ∧
        since + second * secs ≤ now ∧ left + 1 = l.refill) ∧
      (l.fail now).phase = if left = 0 then .closed now else .opened left) ∨
    ∃ since, l.phase = .closed since ∧ (l.fail now).phase = .closed now := by
  have hr := h.inRange
  have hm := hr.maxTries_pos
  have h0 := h.nonneg
  rw [fail_phase_eq hm hw]
  by_cases hn : l.numFailures < l.maxTries
  · -- one of the tries that are left
    refine .inl ⟨(l.maxTries - l.numFailures).toNat - 1, .inl ?_, ?_⟩
    · rw [phase_of_lt hn]
      congr 1
      omega
    · rw [tryReset_of_lt hn]
      split_ifs
      · rfl
      · omega
      · omega
      · congr 1
        omega
  have hn' : l.maxTries ≤ l.numFailures := not_lt.mp hn
  cases hdyn : l.dynamicLimit
  · have hat := h.locked hdyn hn'
    have hsecs : l.unlockSecs = l.lockSecs := by simp [lockSecs, hdyn]
    by_cases hpos : 0 ≤ l.unlockSecs
    · have hb := hr.lockSecs_bounds (by have := hr.lockSecs_ne_zero; omega)
      rw [tryReset_eq hm hn' hpos (hsecs ▸ hb.2) (h.steady.lockAt.imp id And.left) hw]
      split_ifs with hover hlast
      · -- the lock is over, and there is one try
        refine .inl ⟨0, .inr ⟨l.lockAt, phase_of_le hn' hat, ?_, ?_⟩, rfl⟩
        · have hle := (hd.congr h.config).le_lockSecs hr (hsecs ▸ hpos)
          have hlt := hover.resolve_left hat
          unfold second at hlt ⊢
          omega
        · rw [reset_numFailures, hdyn] at hlast
          rw [refill, hdyn]
          simp only [Bool.false_eq_true, if_false] at hlast ⊢
          omega
      · -- the lock is over, and there are more tries
        rw [reset_numFailures, hdyn] at hlast ⊢
        simp only [Bool.false_eq_true, if_false] at hlast ⊢
        refine .inl ⟨l.maxTries.toNat - 1, .inr ⟨l.lockAt, phase_of_le hn' hat, ?_, ?_⟩, ?_⟩
        · have hle := (hd.congr h.config).le_lockSecs hr (hsecs ▸ hpos)
          have hlt := hover.resolve_left hat
          unfold second at hlt ⊢
          omega
        · rw [refill, hdyn]
          simp only [Bool.false_eq_true, if_false]
          omega
        · rw [if_neg (by omega)]
          congr 1
          omega
      · exact .inr ⟨l.lockAt, phase_of_le hn' hat, rfl⟩
      · omega
    · rw [tryReset_of_neg (by omega), if_pos (by omega)]
      exact .inr ⟨l.lockAt, phase_of_le hn' hat, rfl⟩
  · -- a dynamic limit keeps its failures
    have hsame : (l.tryReset now).numFailures = l.numFailures := by
      rcases tryReset_eq_or l now with heq | heq <;> rw [heq]
      rw [reset_numFailures, if_pos hdyn]
    rw [hsame, if_pos (by omega)]
    by_cases hat : l.lockAt = Time.zero
    · refine .inl ⟨0, .inl ?_, rfl⟩
      rw [phase, if_neg hn, if_pos hat]
    · exact .inr ⟨l.lockAt, phase_of_le hn' hat, rfl⟩

/-- **A success** opens the limit. -/
theorem Throttled.reset_phase (h : l₀.Throttled l now) :
    ∃ left, l.reset.phase = .opened left ∧ 0 < left ∧ left ≤ l.maxTries.toNat := by
  have hm := h.inRange.maxTries_pos
  have hn := h.nonneg
  by_cases hlt : l.numFailures < l.maxTries
  · rw [phase_of_lt (by rw [reset_numFailures, reset_maxTries]; split_ifs <;> omega),
      reset_maxTries, reset_numFailures]
    refine ⟨_, rfl, ?_, ?_⟩
    · split_ifs <;> omega
    · split_ifs <;> omega
  · obtain ⟨h0, hle⟩ := h.inRange.refill_pos
    exact ⟨_, h.phase_reset_of_le (by omega), h0, hle⟩

/-- **Forgetting everything** opens the limit. -/
theorem Throttled.resetAll_phase (h : l₀.Throttled l now) :
    l.resetAll.phase = .opened l.maxTries.toNat := by
  have hm := h.inRange.maxTries_pos
  have hn : l.resetAll.numFailures = 0 := by
    unfold Limit.resetAll
    rw [reset_numFailures]
    split_ifs <;> rfl
  have hmt : l.resetAll.maxTries = l.maxTries := (resetAll_sameConfig l).2.2.1
  rw [phase_of_lt (by omega), hn, hmt, sub_zero]

/-! ## Steps of the throttle -/

variable {beside running running' missed renewed : ℕ}

/-- A question, after which the attempts are no more than before, or it was answered with a yes. -/
theorem Throttled.allow_steps (h : l₀.Throttled l now) (hd : l₀.LocksFor secs)
    (hw : WallClock now) {r : Bool × ℤ} (ha : l.allow now = some (r, l'))
    (hrunning : running' ≤ running ∨ (r.1 = true ∧ running' ≤ beside + 1)) :
    Relation.ReflTransGen ((l₀.throttle beside secs).Step now)
      ⟨l.phase, running, missed, renewed⟩ ⟨l'.phase, running', missed, renewed⟩ := by
  obtain ⟨hphase, hyes⟩ := h.allow_phase hd hw ha
  have hlast : Relation.ReflTransGen ((l₀.throttle beside secs).Step now)
      ⟨l'.phase, running, missed, renewed⟩ ⟨l'.phase, running', missed, renewed⟩ := by
    rcases hrunning with hle | ⟨hr, hle⟩
    · exact .single (.drop hle)
    · obtain ⟨left, hopen⟩ := hyes hr
      rw [hopen]
      exact .single (.start hle)
  rcases hphase with hsame | ⟨since, hclosed, hover, hopen⟩
  · rw [← hsame]
    exact hlast
  · obtain ⟨h0, -⟩ := h.inRange.refill_pos
    refine .head ?_ hlast
    rw [hclosed, hopen, refill_congr h.config]
    rw [refill_congr h.config] at h0
    exact .reopen hover h0 le_rfl

/-- The failure of one attempt. -/
theorem Throttled.fail_steps (h : l₀.Throttled l now) (hd : l₀.LocksFor secs)
    (hw : WallClock now) :
    Relation.ReflTransGen ((l₀.throttle beside secs).Step now)
      ⟨l.phase, running + 1, missed, renewed⟩ ⟨(l.fail now).phase, running, missed + 1, renewed⟩ := by
  have htry : ∀ left, Relation.ReflTransGen ((l₀.throttle beside secs).Step now)
      ⟨.opened (left + 1), running + 1, missed, renewed⟩
      ⟨if left = 0 then .closed now else .opened left, running, missed + 1, renewed⟩ := by
    intro left
    rcases left with _ | left
    · exact .single .last
    · rw [if_neg (Nat.succ_ne_zero left)]
      exact .single .miss
  rcases h.fail_phase hd hw with ⟨left, hopen | ⟨since, hclosed, hover, hrefill⟩, hfail⟩ |
    ⟨since, hclosed, hfail⟩
  · rw [hopen, hfail]
    exact htry left
  · rw [hclosed, hfail]
    rw [refill_congr h.config] at hrefill
    exact .head (.reopen hover (Nat.succ_pos left) hrefill.le) (htry left)
  · rw [hclosed, hfail]
    exact .single .late

/-- A success. -/
theorem Throttled.reset_step (h : l₀.Throttled l now) : (l₀.throttle beside secs).Step now
    ⟨l.phase, running, missed, renewed⟩ ⟨l.reset.phase, running, missed, renewed + 1⟩ := by
  obtain ⟨left, hopen, h0, hle⟩ := h.reset_phase
  rw [h.config.2.2.1] at hle
  rw [hopen]
  exact .renew h0 hle

/-- Forgetting everything. -/
theorem Throttled.resetAll_step (h : l₀.Throttled l now) : (l₀.throttle beside secs).Step now
    ⟨l.phase, running, missed, renewed⟩ ⟨l.resetAll.phase, running, missed, renewed + 1⟩ := by
  have hm := h.range.maxTries_pos
  rw [h.resetAll_phase, h.config.2.2.1]
  exact .renew (by omega) le_rfl

end throttled

end Limit

end LingmoAuthenticate.Limits
