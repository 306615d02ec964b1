import LingmoAuthenticate.Limits.Limit

/-!
# Where the time arithmetic of a limit wraps

`tryReset` compares 64-bit nanoseconds. The zero time, which stands for "no lock", lies outside
their range: its `UnixNano` is already a wrapped number, of the year 1754. This module says
exactly on which limits and instants the comparison is the mathematical one.

* `ExactReset l now`: `tryReset` resets exactly when more than `unlockSecs` seconds have passed
  since `lockAt`, and neither the difference nor the duration wraps.
* `exactReset_iff`: it holds exactly when `ClockSafe l now` does. From 2046-12-09 on, no limit
  whose lock was taken back is safe.
* `Open l` is a dynamic limit that has answered `true`; `open_step` keeps it so, and open, until
  the next failure, at questions that are safe.
* `no_spurious_lock_iff` collects the two.
-/

namespace LingmoAuthenticate.Limits

open Lib AuthCommon

namespace Limit

/-! ## One comparison -/

/-- A limit that holds a lock, at an instant of the 64-bit range: it is locked since an earlier
such instant, or its lock was taken back. -/
structure LockedOnClock (l : Limit) (now : ℤ) : Prop where
  now_fits : FitsInt64 now
  lockAt : l.lockAt = Time.zero ∨ (FitsInt64 l.lockAt ∧ l.lockAt ≤ now)
  unlockSecs : 0 ≤ l.unlockSecs
  maxTries : 0 < l.maxTries
  failures : l.maxTries ≤ l.numFailures

/-- `tryReset` at `now` is the comparison of mathematical instants: neither the difference from the
lock nor the duration of the lock leaves the 64-bit integers. -/
structure ExactReset (l : Limit) (now : ℤ) : Prop where
  resets : l.tryReset now = if second * l.unlockSecs < now - l.lockAt then l.reset else l
  difference : FitsInt64 (Time.unixNano now - Time.unixNano l.lockAt)
  duration : FitsInt64 (second * l.unlockSecs)

/-- The duration is at most 9223372036 seconds (292 years); a lock is at most 292 years old; and
where the lock was taken back, the present is at most 2046-12-09, and further from 1754-08-30 than
the duration (or there is nothing that a reset would change). -/
def ClockSafe (l : Limit) (now : ℤ) : Prop :=
  l.unlockSecs ≤ 9223372036 ∧
    if l.lockAt = Time.zero then
      now ≤ 2428007457983430655 ∧
        (second * l.unlockSecs < now + 6795364578871345152 ∨
          (l.dynamicLimit = true ∧ l.unlockSecs = 0))
    else now - l.lockAt ≤ 9223372036854775807

instance (l : Limit) (now : ℤ) : Decidable (ClockSafe l now) :=
  inferInstanceAs (Decidable (_ ∧ _))

/-- A limit that holds a lock is reset by the wrapped comparison. -/
theorem LockedOnClock.tryReset_eq {l : Limit} {now : ℤ} (h : LockedOnClock l now) :
    l.tryReset now =
      if int64 (second * l.unlockSecs) <
          int64 (Time.unixNano now - Time.unixNano l.lockAt) then l.reset else l := by
  have hu := h.unlockSecs
  unfold tryReset
  rw [if_neg (by omega), if_pos ⟨h.failures, h.maxTries⟩]

/-- A duration fits exactly up to 9223372036 seconds. -/
theorem LockedOnClock.duration_iff {l : Limit} {now : ℤ} (h : LockedOnClock l now) :
    FitsInt64 (second * l.unlockSecs) ↔ l.unlockSecs ≤ 9223372036 := by
  have hu := h.unlockSecs
  unfold FitsInt64 second
  omega

/-- A reset changes nothing of a limit without a lock exactly when the limit is dynamic and
caches no duration. -/
theorem LockedOnClock.reset_eq_self_iff {l : Limit} {now : ℤ} (h : LockedOnClock l now)
    (h0 : l.lockAt = Time.zero) :
    l.reset = l ↔ l.dynamicLimit = true ∧ l.unlockSecs = 0 := by
  have hm := h.maxTries
  have hf := h.failures
  constructor
  · intro hreset
    cases hd : l.dynamicLimit
    · have hn := congrArg Limit.numFailures hreset
      rw [reset_numFailures, hd] at hn
      simp only [Bool.false_eq_true, if_false] at hn
      omega
    · have hu := congrArg Limit.unlockSecs hreset
      rw [reset_unlockSecs, hd] at hu
      exact ⟨rfl, hu.symm⟩
  · rintro ⟨hd, hu⟩
    unfold reset
    dsimp only
    rw [if_pos hd, ← h0, ← hu]

/-- With a lock from an earlier instant, the comparison is exact up to 292 years. -/
theorem LockedOnClock.exactReset_iff_of_ne {l : Limit} {now : ℤ} (h : LockedOnClock l now)
    (h0 : l.lockAt ≠ Time.zero) :
    ExactReset l now ↔ l.unlockSecs ≤ 9223372036 ∧ now - l.lockAt ≤ 9223372036854775807 := by
  obtain ⟨hat, hle⟩ := h.lockAt.resolve_left h0
  have hdiff : Time.unixNano now - Time.unixNano l.lockAt = now - l.lockAt := by
    unfold Time.unixNano
    rw [int64_eq_self h.now_fits, int64_eq_self hat]
  constructor
  · rintro ⟨-, hd, hu⟩
    rw [hdiff] at hd
    exact ⟨h.duration_iff.mp hu, hd.2⟩
  · rintro ⟨hu, hd⟩
    have hu' := h.duration_iff.mpr hu
    have hd' : FitsInt64 (now - l.lockAt) := by
      unfold FitsInt64
      omega
    refine ⟨?_, hdiff ▸ hd', hu'⟩
    rw [h.tryReset_eq, hdiff, int64_eq_self hd', int64_eq_self hu']

/-- With the lock taken back, every duration is over, and the comparison finds so only in the
window that the wrapped zero time leaves. -/
theorem LockedOnClock.exactReset_iff_of_eq {l : Limit} {now : ℤ} (h : LockedOnClock l now)
    (h0 : l.lockAt = Time.zero) :
    ExactReset l now ↔ l.unlockSecs ≤ 9223372036 ∧ now ≤ 2428007457983430655 ∧
      (second * l.unlockSecs < now + 6795364578871345152 ∨
        (l.dynamicLimit = true ∧ l.unlockSecs = 0)) := by
  obtain ⟨hlo, hhi⟩ := h.now_fits
  have hdiff : Time.unixNano now - Time.unixNano l.lockAt = now + 6795364578871345152 := by
    rw [h0, unixNano_zero, Time.unixNano, int64_eq_self h.now_fits]
    omega
  have hfits : FitsInt64 (now + 6795364578871345152) ↔ now ≤ 2428007457983430655 := by
    unfold FitsInt64
    omega
  have hover : l.unlockSecs ≤ 9223372036 → second * l.unlockSecs < now - l.lockAt := by
    intro hu
    rw [h0]
    unfold Time.zero second
    omega
  constructor
  · rintro ⟨hr, hd, hu⟩
    have hu' := h.duration_iff.mp hu
    rw [hdiff] at hd
    refine ⟨hu', hfits.mp hd, ?_⟩
    rw [h.tryReset_eq, hdiff, int64_eq_self hd, int64_eq_self hu, if_pos (hover hu')] at hr
    by_cases hlt : second * l.unlockSecs < now + 6795364578871345152
    · exact Or.inl hlt
    · rw [if_neg hlt] at hr
      exact Or.inr ((h.reset_eq_self_iff h0).mp hr.symm)
  · rintro ⟨hu', hnow, hcase⟩
    have hu := h.duration_iff.mpr hu'
    have hd := hfits.mpr hnow
    refine ⟨?_, hdiff ▸ hd, hu⟩
    rw [h.tryReset_eq, hdiff, int64_eq_self hd, int64_eq_self hu, if_pos (hover hu')]
    rcases hcase with hlt | hnop
    · exact if_pos hlt
    · rw [(h.reset_eq_self_iff h0).mpr hnop, ite_self]

/-- **When the comparison is exact.** -/
theorem LockedOnClock.exactReset_iff {l : Limit} {now : ℤ} (h : LockedOnClock l now) :
    ExactReset l now ↔ ClockSafe l now := by
  unfold ClockSafe
  by_cases h0 : l.lockAt = Time.zero
  · rw [if_pos h0]
    exact h.exactReset_iff_of_eq h0
  · rw [if_neg h0]
    exact h.exactReset_iff_of_ne h0

/-! ## A dynamic limit that has answered `true` -/

/-- A dynamic limit that nothing locks: it is unlimited, its present duration is zero, or its lock
was taken back. -/
structure Open (l : Limit) : Prop where
  dynamic : l.dynamicLimit = true
  unlocked : l.maxTries = 0 ∨ l.getDynamicLimitTime = some 0 ∨ l.lockAt = Time.zero

/-- A question at `t` that a dynamic limit answers by the clock is put to a proper limit, and at an
instant that is safe for its present duration. -/
def AskSafe (l : Limit) (t : ℤ) : Prop :=
  ∀ secs, l.getDynamicLimitTime = some secs → secs ≠ 0 → l.maxTries ≠ 0 →
    0 < l.maxTries ∧ FitsInt64 t ∧ 0 ≤ secs ∧ (l.setUnlockSecs secs).ClockSafe t

/-- A dynamic limit that answers `true` is open from then on. -/
theorem open_of_allow {l l₁ : Limit} {t u : ℤ} (hd : l.dynamicLimit = true)
    (h : l.allow t = some ((true, u), l₁)) : l₁.Open := by
  have hs := allow_sameConfig h
  refine ⟨hs.2.2.2.1.trans hd, ?_⟩
  by_cases hm : l.maxTries = 0
  · exact Or.inl (hs.2.2.1.trans hm)
  · obtain ⟨l₀, h₀, rfl, hans⟩ := (allow_eq_some hm).mp h
    rw [refresh, if_pos hd] at h₀
    obtain ⟨secs, hsecs, rfl⟩ := Option.map_eq_some_iff.mp h₀
    rcases tryReset_eq_or (l.setUnlockSecs secs) t with hr | hr
    · -- nothing was reset, so the answer was read off the failures or off the duration
      right
      left
      rw [hr] at hans ⊢
      change l.getDynamicLimitTime = some 0
      by_cases hn : l.numFailures < l.maxTries
      · exact getDynamicLimitTime_of_lt hn
      · by_cases h0 : secs = 0
        · rw [hsecs, h0]
        · rw [answer_of_le (l := l.setUnlockSecs secs) (not_lt.mp hn) h0] at hans
          simp at hans
    · exact Or.inr (Or.inr (hr ▸ reset_lockAt _))

/-- An open limit that is asked when it is safe answers `true`. -/
theorem Open.allow_answer {l l₁ : Limit} {t : ℤ} {r : Bool × ℤ} (ho : l.Open)
    (hsafe : l.AskSafe t) (h : l.allow t = some (r, l₁)) : r.1 = true := by
  by_cases hm : l.maxTries = 0
  · rw [allow, if_pos hm, Option.some.injEq, Prod.mk.injEq] at h
    rw [← h.1]
  · obtain ⟨l₀, h₀, rfl, rfl⟩ := (allow_eq_some hm).mp h
    rw [refresh, if_pos ho.dynamic] at h₀
    obtain ⟨secs, hsecs, rfl⟩ := Option.map_eq_some_iff.mp h₀
    by_cases h0 : secs = 0
    · -- a duration of zero: reset or not, the limit caches zero
      have hu : ((l.setUnlockSecs secs).tryReset t).unlockSecs = 0 := by
        rcases tryReset_eq_or (l.setUnlockSecs secs) t with hr | hr
        · rw [hr, setUnlockSecs_unlockSecs, h0]
        · rw [hr, reset_unlockSecs, setUnlockSecs_dynamicLimit, ho.dynamic]
          rfl
      rw [answer_of_zero hu]
    · -- the lock was taken back, and at a safe instant the limit finds it expired
      have hat : l.lockAt = Time.zero := by
        rcases ho.unlocked with h' | h' | h'
        · exact absurd h' hm
        · rw [hsecs, Option.some.injEq] at h'
          exact absurd h' h0
        · exact h'
      obtain ⟨hpos, hfit, hsecs0, hclock⟩ := hsafe secs hsecs h0 hm
      have hn : l.maxTries ≤ l.numFailures := by
        by_contra hlt
        rw [getDynamicLimitTime_of_lt (not_le.mp hlt), Option.some.injEq] at hsecs
        exact h0 hsecs.symm
      have hlocked : LockedOnClock (l.setUnlockSecs secs) t :=
        ⟨hfit, Or.inl hat, hsecs0, hpos, hn⟩
      have hexact := hlocked.exactReset_iff.mpr hclock
      have hover : second * (l.setUnlockSecs secs).unlockSecs <
          t - (l.setUnlockSecs secs).lockAt := by
        have hle := hclock.1
        have hlo := hfit.1
        rw [setUnlockSecs_unlockSecs] at hle ⊢
        rw [setUnlockSecs_lockAt, hat]
        unfold Time.zero second
        omega
      have hreset := hexact.resets
      rw [if_pos hover] at hreset
      have hu : ((l.setUnlockSecs secs).tryReset t).unlockSecs = 0 := by
        rw [hreset, reset_unlockSecs, setUnlockSecs_dynamicLimit, ho.dynamic]
        rfl
      rw [answer_of_zero hu]

/-- An open limit stays open until a failure, and answers safe questions with `true`. -/
theorem open_step {l l' : Limit} {op : ℤ × LimitOp} {o : Option (Bool × ℤ)} (ho : l.Open)
    (hsafe : op.2 ≠ .fail ∧ (op.2 = .allow → l.AskSafe op.1))
    (h : l.step op = some (l', o)) : l'.Open ∧ ∀ r, o = some r → r.1 = true := by
  obtain ⟨t, op⟩ := op
  have hdyn : l'.dynamicLimit = true := (step_sameConfig h).2.2.2.1.trans ho.dynamic
  cases op with
  | allow =>
      obtain ⟨⟨⟨b, u⟩, l₁⟩, hr, h'⟩ := Option.map_eq_some_iff.mp h
      have hb : b = true := ho.allow_answer (hsafe.2 rfl) hr
      cases h'
      subst hb
      refine ⟨open_of_allow ho.dynamic hr, ?_⟩
      rintro r ⟨⟩
      rfl
  | fail => exact absurd rfl hsafe.1
  | success =>
      cases h
      exact ⟨⟨hdyn, Or.inr (Or.inr (reset_lockAt l))⟩, by simp⟩
  | resetAll =>
      cases h
      exact ⟨⟨hdyn, Or.inr (Or.inr (reset_lockAt { l with numFailures := 0 }))⟩, by simp⟩

/-- **When the time arithmetic of a limit is exact**: for one comparison, exactly on the safe
limits and instants; and a dynamic limit that has answered `true` answers every question with
`true` until the next failure, where the questions are safe. -/
theorem no_spurious_lock_iff (l : Limit) :
    (∀ now, LockedOnClock l now → (ExactReset l now ↔ ClockSafe l now)) ∧
      (l.dynamicLimit = true → ∀ t u l₁ ops l' obs, l.allow t = some ((true, u), l₁) →
        Along Limit.step (fun l op => op.2 ≠ .fail ∧ (op.2 = .allow → l.AskSafe op.1)) l₁ ops →
          run Limit.step l₁ ops = some (l', obs) → ∀ r, some r ∈ obs → r.1 = true) := by
  refine ⟨fun now h => h.exactReset_iff, ?_⟩
  intro hd t u l₁ ops l' obs hallow hsafe hrun r hr
  exact (run_observes (fun _ _ _ _ ho hs h => open_step ho hs h) (open_of_allow hd hallow) hsafe
    hrun).2 (some r) hr r rfl

/-- The configuration of the example below: one try, then a lock of 60 seconds. -/
def oneTry : LimitConfig := ⟨.password, 0, 1, true, [60]⟩

/-- In December 2046 a lock of one minute is found expired after 61 seconds, and from the day the
difference to the wrapped zero time wraps itself, the same lock is back: the comparison is no
longer exact. -/
theorem spurious_lock_from_2046 :
    ∃ l, run Limit.step (ofConfig oneTry)
        [(2428007000000000000, .fail), (2428007061000000000, .allow)] =
          some (l, [none, some (true, Time.zero)]) ∧
      LockedOnClock (l.setUnlockSecs 60) 2428007457983430656 ∧
      ¬ ExactReset (l.setUnlockSecs 60) 2428007457983430656 ∧
      (l.step (2428007457983430656, .allow)).map Prod.snd =
        some (some (false, Time.zero + 60 * second)) := by
  refine ⟨⟨.password, 1, 1, Time.zero, 2428007000000000000, 0, 1, true, [60]⟩, by decide,
    ⟨by decide, Or.inl rfl, by decide, by decide, by decide⟩, ?_, by decide⟩
  intro h
  exact absurd h.difference (by decide)

/-- The exact conditions at work: a question that is safe for the duration of 60 seconds. -/
theorem no_spurious_lock_iff_one_try :
    ExactReset ((ofConfig oneTry).fail 0) 61000000000 ∧
      ∀ r, some r ∈ [some (true, Time.zero)] → r.1 = true := by
  refine ⟨((no_spurious_lock_iff ((ofConfig oneTry).fail 0)).1 61000000000
    ⟨by decide, Or.inr (by decide), by decide, by decide, by decide⟩).mpr (by decide), ?_⟩
  refine (no_spurious_lock_iff ((ofConfig oneTry).fail 0)).2 rfl 61000000000 Time.zero
    ⟨.password, 1, 1, Time.zero, 0, 0, 1, true, [60]⟩ [(62000000000, .allow)]
    ⟨.password, 1, 1, Time.zero, 0, 0, 1, true, [60]⟩ [some (true, Time.zero)] (by decide)
    ⟨⟨by decide, ?_⟩, fun _ _ _ => trivial⟩ (by decide)
  intro _ secs hsecs _ _
  have h60 : secs = 60 := (Option.some.inj hsecs).symm
  subst h60
  decide

end Limit

end LingmoAuthenticate.Limits
