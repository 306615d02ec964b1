import LingmoAuthenticate.Limits.Window

/-!
# Asking does not change a limit

`allow` is a question, and it writes: it caches the duration of a dynamic lock, and takes back a
lock that it finds expired. Two runs are compared here, of which the second asks more often.

* `Asked ops ops'`: the operations `ops'` are `ops` with further questions put in between.
* `Over l now`: the lock of the limit is over, whether or not a question has found out.
  `allow_eq` is one question in terms of it.
* `Ahead s l l'`: the limit `l'` has been asked more often than `l`: the two agree, or the lock of
  `l` is over and `l'` has found out. Every operation keeps `Ahead` (`Ahead.step`), and so does a
  further question (`Ahead.ask`).
* `askingIsFree_iff`: the two runs cannot be told apart, except where a question can panic.
-/

namespace LingmoAuthenticate.Limits

open Lib AuthCommon

/-- `ops'` is `ops` with any number of further questions put in between. -/
inductive Asked : List (ℤ × LimitOp) → List (ℤ × LimitOp) → Prop
  | nil : Asked [] []
  | same (op : ℤ × LimitOp) {ops ops' : List (ℤ × LimitOp)} (h : Asked ops ops') :
      Asked (op :: ops) (op :: ops')
  | ask (now : ℤ) {ops ops' : List (ℤ × LimitOp)} (h : Asked ops ops') :
      Asked ops ((now, .allow) :: ops')

namespace Limit

/-! ## The clock -/

/-- The instants of the 64-bit range that are not before the one that the zero time wraps to, and
whose distance to it does not wrap: from 1754-08-30 to 2046-12-09. -/
def OnClock (t : ℤ) : Prop := Time.unixNano Time.zero ≤ t ∧ t ≤ 2428007457983430655

instance (t : ℤ) : Decidable (OnClock t) := inferInstanceAs (Decidable (_ ∧ _))

/-- The operations are made one after the other, from `s` on. -/
def Timed (s : ℤ) (ops : List (ℤ × LimitOp)) : Prop :=
  (s :: ops.map Prod.fst).Pairwise (· ≤ ·) ∧ ∀ op ∈ ops, OnClock op.1

/-- The limit has no lock, or one that began at an instant of the range. -/
def LockOnClock (l : Limit) : Prop := l.lockAt = Time.zero ∨ OnClock l.lockAt

/-- An instant of the range is its nanoseconds. -/
theorem OnClock.unixNano_eq {t : ℤ} (h : OnClock t) : Time.unixNano t = t := by
  unfold OnClock at h
  rw [unixNano_zero] at h
  exact int64_eq_self (by constructor <;> omega)

/-- A lock begins, as `tryReset` reads it, at an instant of the range. -/
theorem LockOnClock.unixNano_lockAt {l : Limit} (h : l.LockOnClock) :
    OnClock (Time.unixNano l.lockAt) := by
  rcases h with h | h
  · rw [h, unixNano_zero]
    decide
  · rw [h.unixNano_eq]
    exact h

/-- The age of a lock does not wrap. -/
theorem LockOnClock.age_eq {l : Limit} (h : l.LockOnClock) {now : ℤ} (hnow : OnClock now) :
    int64 (Time.unixNano now - Time.unixNano l.lockAt) = now - Time.unixNano l.lockAt := by
  have hat := h.unixNano_lockAt
  rw [hnow.unixNano_eq]
  unfold OnClock at hnow hat
  rw [unixNano_zero] at hnow hat
  exact int64_eq_self (by constructor <;> omega)

/-! ## One question -/

/-- Every question has an answer: the duration of a dynamic lock can be looked up. -/
def HasDurations (l : Limit) : Prop :=
  l.dynamicLimit = true → l.maxTries ≠ 0 → l.dynamicLimitUnlockSecs ≠ []

instance (l : Limit) : Decidable l.HasDurations := inferInstanceAs (Decidable (_ → _))

/-- The limit holds a lock that is over: more than its duration has passed, as `tryReset`
compares. -/
structure Over (l : Limit) (now : ℤ) : Prop where
  maxTries : 0 < l.maxTries
  failures : l.maxTries ≤ l.numFailures
  lockSecs : 0 ≤ l.lockSecs
  passed : int64 (second * l.lockSecs) < now - Time.unixNano l.lockAt

instance (l : Limit) (now : ℤ) : Decidable (l.Over now) :=
  decidable_of_iff (0 < l.maxTries ∧ l.maxTries ≤ l.numFailures ∧ 0 ≤ l.lockSecs ∧
      int64 (second * l.lockSecs) < now - Time.unixNano l.lockAt)
    ⟨fun h => ⟨h.1, h.2.1, h.2.2.1, h.2.2.2⟩, fun h => ⟨h.1, h.2, h.3, h.4⟩⟩

/-- The failures and the lock of two limits. -/
def Agree (l l' : Limit) : Prop := l'.numFailures = l.numFailures ∧ l'.lockAt = l.lockAt

/-- The limit as a question at `now` finds it. -/
def found (l : Limit) (now : ℤ) : Limit := if l.Over now then l.reset else l

/-- The answer to a question at `now`. -/
def reply (l : Limit) (now : ℤ) : Bool × ℤ :=
  if l.maxTries = 0 ∨ l.Over now ∨ l.numFailures < l.maxTries ∨ l.lockSecs = 0 then
    (true, Time.zero)
  else (false, Time.add l.lockAt (int64 (second * l.lockSecs)))

theorem Agree.refl (l : Limit) : Agree l l := ⟨rfl, rfl⟩

theorem Agree.symm {l l' : Limit} (h : Agree l l') : Agree l' l := ⟨h.1.symm, h.2.symm⟩

theorem Agree.trans {l₁ l₂ l₃ : Limit} (h : Agree l₁ l₂) (h' : Agree l₂ l₃) : Agree l₁ l₃ :=
  ⟨h'.1.trans h.1, h'.2.trans h.2⟩

/-- Limits that agree are taken back alike. -/
theorem Agree.reset {l l' : Limit} (hc : SameConfig l l') (h : Agree l l') :
    Agree l.reset l'.reset := by
  refine ⟨?_, by rw [reset_lockAt, reset_lockAt]⟩
  rw [reset_numFailures, reset_numFailures, hc.2.2.2.1, h.1]

/-- Taking a lock back twice is taking it back once. -/
theorem agree_reset_reset (l : Limit) : Agree l.reset l.reset.reset := by
  refine ⟨?_, by rw [reset_lockAt, reset_lockAt]⟩
  rw [reset_numFailures, reset_dynamicLimit, reset_numFailures]
  split_ifs <;> rfl

/-- The duration of a lock depends on the configuration and the failures. -/
theorem Agree.lockSecs_eq {l l' : Limit} (hc : SameConfig l l') (h : Agree l l') :
    l'.lockSecs = l.lockSecs := by
  obtain ⟨-, -, hm, hd, hl, hu⟩ := hc
  unfold lockSecs
  rw [hm, hd, hl, h.1]
  split_ifs with hdyn
  · rfl
  · exact hu (by simpa using hdyn)

/-- Limits that agree are over alike. -/
theorem Agree.over_iff {l l' : Limit} (hc : SameConfig l l') (h : Agree l l') {now : ℤ} :
    l'.Over now ↔ l.Over now := by
  have hs := h.lockSecs_eq hc
  constructor
  · rintro ⟨h₁, h₂, h₃, h₄⟩
    exact ⟨hc.2.2.1 ▸ h₁, hc.2.2.1 ▸ h.1 ▸ h₂, hs ▸ h₃, by rw [← hs, ← h.2]; exact h₄⟩
  · rintro ⟨h₁, h₂, h₃, h₄⟩
    refine ⟨?_, ?_, ?_, ?_⟩
    · rw [hc.2.2.1]
      exact h₁
    · rw [hc.2.2.1, h.1]
      exact h₂
    · rw [hs]
      exact h₃
    · rw [hs, h.2]
      exact h₄

/-- A lock that is over stays over. -/
theorem Over.mono {l : Limit} {s t : ℤ} (h : l.Over s) (hst : s ≤ t) : l.Over t := by
  refine ⟨h.maxTries, h.failures, h.lockSecs, ?_⟩
  have := h.passed
  omega

/-- Limits that agree are found alike. -/
theorem Agree.found {l l' : Limit} (hc : SameConfig l l') (h : Agree l l') (now : ℤ) :
    Agree (l.found now) (l'.found now) := by
  unfold Limit.found
  by_cases hover : l.Over now
  · rw [if_pos hover, if_pos ((h.over_iff hc).mpr hover)]
    exact h.reset hc
  · rw [if_neg hover, if_neg (fun h' => hover ((h.over_iff hc).mp h'))]
    exact h

/-- The reset of a limit whose duration is refreshed happens exactly when the lock is over. -/
theorem tryReset_eq_ite {l : Limit} (hlock : l.LockOnClock) {now : ℤ} (hnow : OnClock now)
    (hsecs : l.maxTries ≤ l.numFailures → l.unlockSecs = l.lockSecs) :
    l.tryReset now = if l.Over now then l.reset else l := by
  by_cases hover : l.Over now
  · have hu := hsecs hover.failures
    have hpassed := hover.passed
    have hnonneg := hover.lockSecs
    rw [if_pos hover]
    unfold tryReset
    dsimp only
    rw [hlock.age_eq hnow, hu, if_neg (by omega), if_pos ⟨hover.failures, hover.maxTries⟩,
      if_pos hpassed]
  · rw [if_neg hover]
    unfold tryReset
    dsimp only
    rw [hlock.age_eq hnow]
    split_ifs with h₁ h₂ h₃
    · rfl
    · -- the comparison is the last of the four conditions
      have hu := hsecs h₂.1
      rw [hu] at h₁ h₃
      exact absurd ⟨h₂.2, h₂.1, by omega, h₃⟩ hover
    · rfl
    · rfl

/-- What the refreshed limit shares with the limit. -/
theorem HasDurations.refresh {l : Limit} (h : l.HasDurations) (hm : l.maxTries ≠ 0) :
    ∃ l₁, l.refresh = some l₁ ∧ SameConfig l l₁ ∧ Agree l l₁ ∧
      (l.maxTries ≤ l.numFailures → l₁.unlockSecs = l.lockSecs) := by
  cases hd : l.dynamicLimit with
  | false =>
      have href : l.refresh = some l := by simp [Limit.refresh, hd]
      refine ⟨l, href, .refl l, .refl l, ?_⟩
      intro _
      simp [lockSecs, hd]
  | true =>
      by_cases hn : l.maxTries ≤ l.numFailures
      · have hsome := getDynamicLimitTime_eq hd (h hd hm) hn
        have href : l.refresh = some (l.setUnlockSecs l.lockSecs) := by
          simp [Limit.refresh, hd, hsome]
        exact ⟨_, href, refresh_sameConfig href, .refl l, fun _ => rfl⟩
      · have hsome := getDynamicLimitTime_of_lt (not_le.mp hn)
        have href : l.refresh = some (l.setUnlockSecs 0) := by
          simp [Limit.refresh, hd, hsome]
        exact ⟨_, href, refresh_sameConfig href, .refl l, fun h' => absurd h' hn⟩

/-- **One question**: it is answered by `reply`, and leaves the limit as it was found. -/
theorem HasDurations.allow_eq {l : Limit} (h : l.HasDurations) (hlock : l.LockOnClock) {now : ℤ}
    (hnow : OnClock now) :
    ∃ l', l.allow now = some (l.reply now, l') ∧ SameConfig l l' ∧ Agree (l.found now) l' := by
  by_cases hm : l.maxTries = 0
  · have hnever : ¬ l.Over now := fun hover => absurd hover.maxTries (by omega)
    refine ⟨l, ?_, .refl l, ?_⟩
    · rw [allow, if_pos hm, reply, if_pos (Or.inl hm)]
    · rw [found, if_neg hnever]
      exact .refl l
  · obtain ⟨l₁, href, hc, hagree, hsecs⟩ := h.refresh hm
    have hlock₁ : l₁.LockOnClock := by
      unfold LockOnClock
      rw [hagree.2]
      exact hlock
    have hsecs₁ : l₁.maxTries ≤ l₁.numFailures → l₁.unlockSecs = l₁.lockSecs := by
      rw [hc.2.2.1, hagree.1, hagree.lockSecs_eq hc]
      exact hsecs
    have htry := tryReset_eq_ite hlock₁ hnow hsecs₁
    refine ⟨l₁.tryReset now, (allow_eq_some hm).mpr ⟨l₁, href, rfl, ?_⟩,
      hc.trans (tryReset_sameConfig l₁ now), ?_⟩
    · unfold reply
      rw [htry]
      by_cases hover : l.Over now
      · -- the lock is taken back: no failures are left, or no duration
        rw [if_pos ((hagree.over_iff hc).mpr hover), if_pos (Or.inr (Or.inl hover))]
        have hpos := hover.maxTries
        unfold answer
        rw [reset_numFailures, reset_maxTries, reset_unlockSecs, hc.2.2.1]
        cases l₁.dynamicLimit <;> simp [hpos]
      · rw [if_neg (fun h' => hover ((hagree.over_iff hc).mp h'))]
        by_cases hn : l.numFailures < l.maxTries
        · rw [if_pos (Or.inr (Or.inr (Or.inl hn))), answer, hc.2.2.1, hagree.1, if_pos hn]
        · have hu := hsecs (not_lt.mp hn)
          unfold answer
          rw [hc.2.2.1, hagree.1, if_neg hn, hu, hagree.2]
          by_cases h0 : l.lockSecs = 0
          · rw [if_pos h0, if_pos (Or.inr (Or.inr (Or.inr h0)))]
          · rw [if_neg h0, if_neg (by simp [hm, hover, hn, h0])]
    · rw [htry]
      exact hagree.found hc now

/-! ## The limit that was asked more often -/

/-- The limit `l'` has been asked more often than `l` up to the instant `s`: both are configured
alike, and agree, unless the lock of `l` is over by `s` and `l'` has been reset by one of its
questions. -/
structure Ahead (s : ℤ) (l l' : Limit) : Prop where
  config : SameConfig l l'
  lock : l.LockOnClock
  state : Agree l l' ∨ (l.Over s ∧ Agree l.reset l')

/-- A limit that agrees is locked on the clock too. -/
theorem Agree.lockOnClock {l l' : Limit} (h : Agree l l') (hl : l.LockOnClock) :
    l'.LockOnClock := by
  unfold LockOnClock
  rw [h.2]
  exact hl

/-- A lock that was taken back is on the clock. -/
theorem lockOnClock_reset (l : Limit) : l.reset.LockOnClock := .inl l.reset_lockAt

theorem lockOnClock_found {l : Limit} (hl : l.LockOnClock) (now : ℤ) :
    (l.found now).LockOnClock := by
  unfold found
  split_ifs
  · exact lockOnClock_reset l
  · exact hl

theorem Ahead.lock' {s : ℤ} {l l' : Limit} (h : Ahead s l l') : l'.LockOnClock := by
  rcases h.state with hs | ⟨-, hs⟩
  · exact hs.lockOnClock h.lock
  · exact hs.lockOnClock (lockOnClock_reset l)

/-- Every question has an answer for both. -/
theorem HasDurations.congr {l l' : Limit} (h : l.HasDurations) (hc : SameConfig l l') :
    l'.HasDurations := by
  obtain ⟨-, -, hm, hd, hl, -⟩ := hc
  unfold HasDurations
  rw [hm, hd, hl]
  exact h

/-- Time passes. -/
theorem Ahead.mono {s t : ℤ} {l l' : Limit} (h : Ahead s l l') (hst : s ≤ t) : Ahead t l l' := by
  refine ⟨h.config, h.lock, ?_⟩
  rcases h.state with hs | ⟨hover, hs⟩
  · exact .inl hs
  · exact .inr ⟨hover.mono hst, hs⟩

/-- A question finds the two alike. -/
theorem Ahead.found {now : ℤ} {l l' : Limit} (h : Ahead now l l') :
    Agree (l.found now) (l'.found now) := by
  rcases h.state with hs | ⟨hover, hs⟩
  · exact hs.found h.config now
  · unfold Limit.found
    rw [if_pos hover]
    split_ifs
    · exact (agree_reset_reset l).trans (hs.reset ((reset_sameConfig l).symm.trans h.config))
    · exact hs

/-- Where the lock of the one is over and the other has found out, that one is allowed as well:
its failures are forgotten, or its lock, which began at the zero time, is over too. -/
theorem Over.allows {now : ℤ} {l l' : Limit} (h : l.Over now) (hlock : l.LockOnClock)
    (hc : SameConfig l l') (hs : Agree l.reset l') :
    l'.Over now ∨ l'.numFailures < l'.maxTries := by
  have hpos := h.maxTries
  have hn := hs.1
  have hat := hs.2
  rw [reset_numFailures] at hn
  rw [reset_lockAt] at hat
  cases hd : l.dynamicLimit with
  | false =>
      right
      rw [hn, hc.2.2.1, hd]
      simpa using hpos
  | true =>
      left
      have hagree : l'.numFailures = l.numFailures := by
        rw [hn, hd]
        rfl
      have hsecs : l'.lockSecs = l.lockSecs := by
        rw [Limit.lockSecs, Limit.lockSecs, hc.2.2.2.1, hc.2.2.2.2.1, hc.2.2.1, hagree, hd]
        rfl
      refine ⟨?_, ?_, ?_, ?_⟩
      · rw [hc.2.2.1]
        exact hpos
      · rw [hc.2.2.1, hagree]
        exact h.failures
      · rw [hsecs]
        exact h.lockSecs
      · have hpassed := h.passed
        have hzero := hlock.unixNano_lockAt.1
        rw [hsecs, hat]
        omega

/-- A question is answered alike. -/
theorem Ahead.reply_eq {now : ℤ} {l l' : Limit} (h : Ahead now l l') :
    l'.reply now = l.reply now := by
  rcases h.state with hs | ⟨hover, hs⟩
  · unfold reply
    simp only [hs.lockSecs_eq h.config, hs.1, hs.2, h.config.2.2.1, hs.over_iff h.config]
  · unfold reply
    rw [if_pos (Or.inr (Or.inl hover)), if_pos]
    rcases hover.allows h.lock h.config hs with h' | h'
    · exact .inr (.inl h')
    · exact .inr (.inr (.inl h'))

/-- **A further question** leaves the limit ahead. -/
theorem Ahead.ask {now : ℤ} {l l' : Limit} (h : Ahead now l l') (hdur : l.HasDurations)
    (hnow : OnClock now) :
    ∃ l'' r, l'.allow now = some (r, l'') ∧ Ahead now l l'' := by
  obtain ⟨l'', hallow, hc, hs⟩ := (hdur.congr h.config).allow_eq h.lock' hnow
  have hfound := h.found.trans hs
  refine ⟨l'', _, hallow, h.config.trans hc, h.lock, ?_⟩
  by_cases hover : l.Over now
  · rw [Limit.found, if_pos hover] at hfound
    exact .inr ⟨hover, hfound⟩
  · rw [Limit.found, if_neg hover] at hfound
    exact .inl hfound

/-- A failure counts on from the failures that a question would find, whatever duration is cached,
and from `maxTries` on begins the lock anew. -/
theorem fail_eq {l : Limit} (hm : l.maxTries ≠ 0) (hlock : l.LockOnClock) {now : ℤ}
    (hnow : OnClock now) :
    (l.fail now).numFailures = (l.found now).numFailures + 1 ∧
      (l.fail now).lockAt =
        if (l.found now).numFailures + 1 ≥ l.maxTries then now else (l.found now).lockAt := by
  have hmax : (l.tryReset now).maxTries = l.maxTries := (tryReset_sameConfig l now).2.2.1
  have hn : (l.tryReset now).numFailures = (l.found now).numFailures := by
    cases hd : l.dynamicLimit with
    | false =>
        rw [tryReset_eq_ite hlock hnow (fun _ => by simp [lockSecs, hd])]
        rfl
    | true =>
        have hkeep : l.reset.numFailures = l.numFailures := by
          rw [reset_numFailures, hd]
          rfl
        have hfound : (l.found now).numFailures = l.numFailures := by
          unfold found
          split_ifs
          · exact hkeep
          · rfl
        rcases tryReset_eq_or l now with h | h
        · rw [h, hfound]
        · rw [h, hkeep, hfound]
  have hat : (l.found now).numFailures + 1 < l.maxTries →
      (l.tryReset now).lockAt = (l.found now).lockAt := by
    intro hlt
    cases hd : l.dynamicLimit with
    | false =>
        rw [tryReset_eq_ite hlock hnow (fun _ => by simp [lockSecs, hd])]
        rfl
    | true =>
        -- too few failures for a lock, so there is nothing to take back
        have hnever : ¬ l.Over now := by
          intro hover
          have hpos := hover.failures
          rw [found, if_pos hover, reset_numFailures, hd, if_pos rfl] at hlt
          omega
        rw [found, if_neg hnever] at hlt ⊢
        rw [tryReset_of_lt (by omega)]
  unfold fail
  rw [if_neg hm]
  dsimp only
  rw [hn, hmax]
  by_cases hge : (l.found now).numFailures + 1 ≥ l.maxTries
  · rw [if_pos hge, if_pos hge]
    exact ⟨hn ▸ rfl, rfl⟩
  · rw [if_neg hge, if_neg hge]
    exact ⟨hn ▸ rfl, hat (not_le.mp hge)⟩

/-- A failure leaves the two alike. -/
theorem Ahead.fail {now : ℤ} {l l' : Limit} (h : Ahead now l l') (hnow : OnClock now) :
    Agree (l.fail now) (l'.fail now) := by
  by_cases hm : l.maxTries = 0
  · have hm' : l'.maxTries = 0 := h.config.2.2.1.trans hm
    rw [Limit.fail, Limit.fail, if_pos hm, if_pos hm']
    rcases h.state with hs | ⟨hover, -⟩
    · exact hs
    · exact absurd hover.maxTries (by omega)
  · have hm' : l'.maxTries ≠ 0 := fun h' => hm (h.config.2.2.1.symm.trans h')
    obtain ⟨hn, hat⟩ := fail_eq hm h.lock hnow
    obtain ⟨hn', hat'⟩ := fail_eq hm' h.lock' hnow
    constructor
    · rw [hn, hn', h.found.1]
    · rw [hat, hat', h.found.1, h.found.2, h.config.2.2.1]

/-- A reset leaves the two alike. -/
theorem Ahead.reset {s : ℤ} {l l' : Limit} (h : Ahead s l l') : Agree l.reset l'.reset := by
  rcases h.state with hs | ⟨-, hs⟩
  · exact hs.reset h.config
  · exact (agree_reset_reset l).trans (hs.reset ((reset_sameConfig l).symm.trans h.config))

/-- Forgetting everything leaves all limits alike. -/
theorem agree_resetAll (l l' : Limit) : Agree l.resetAll l'.resetAll := by
  refine ⟨?_, by rw [resetAll, resetAll, reset_lockAt, reset_lockAt]⟩
  rw [resetAll, resetAll, reset_numFailures, reset_numFailures]
  simp

/-- A lock that a failure leaves is on the clock. -/
theorem lockOnClock_fail {l : Limit} (hl : l.LockOnClock) {now : ℤ} (hnow : OnClock now) :
    (l.fail now).LockOnClock := by
  by_cases hm : l.maxTries = 0
  · rw [Limit.fail, if_pos hm]
    exact hl
  · have hat := (fail_eq hm hl hnow).2
    unfold LockOnClock
    split_ifs at hat
    · right
      rw [hat]
      exact hnow
    · rw [hat]
      exact lockOnClock_found hl now

/-- **One operation** that both take: it is observed alike, and leaves the two with the same
failures and the same lock. -/
theorem Ahead.step {now : ℤ} {l l' : Limit} (h : Ahead now l l') (hdur : l.HasDurations)
    (hnow : OnClock now) (op : LimitOp) :
    ∃ l₁ l₁' o, l.step (now, op) = some (l₁, o) ∧ l'.step (now, op) = some (l₁', o) ∧
      Agree l₁ l₁' ∧ Ahead now l₁ l₁' := by
  have alike : ∀ {l₁ l₁' : Limit}, SameConfig l l₁ → SameConfig l' l₁' → l₁.LockOnClock →
      Agree l₁ l₁' → Agree l₁ l₁' ∧ Ahead now l₁ l₁' := fun hc hc' hlock hs =>
    ⟨hs, hc.symm.trans (h.config.trans hc'), hlock, .inl hs⟩
  cases op with
  | allow =>
      obtain ⟨l₁, hallow, hc, hs⟩ := hdur.allow_eq h.lock hnow
      obtain ⟨l₁', hallow', hc', hs'⟩ := (hdur.congr h.config).allow_eq h.lock' hnow
      rw [h.reply_eq] at hallow'
      exact ⟨l₁, l₁', _, step_allow hallow, step_allow hallow',
        alike hc hc' (hs.lockOnClock (lockOnClock_found h.lock now))
          (hs.symm.trans (h.found.trans hs'))⟩
  | fail =>
      exact ⟨_, _, none, rfl, rfl, alike (fail_sameConfig l now) (fail_sameConfig l' now)
        (lockOnClock_fail h.lock hnow) (h.fail hnow)⟩
  | success =>
      exact ⟨_, _, none, rfl, rfl, alike (reset_sameConfig l) (reset_sameConfig l')
        (lockOnClock_reset l) h.reset⟩
  | resetAll =>
      exact ⟨_, _, none, rfl, rfl, alike (resetAll_sameConfig l) (resetAll_sameConfig l')
        (lockOnClock_reset _) (agree_resetAll l l')⟩

/-! ## Two runs -/

/-- What can be told of a run: the failures counted after the last operation, and what the last
operation answered. -/
def outcome (l : Limit) (ops : List (ℤ × LimitOp)) : Option (ℤ × Option (Option (Bool × ℤ))) :=
  (run Limit.step l ops).map fun r => (r.1.numFailures, r.2.getLast?)

/-- Only the last operation of a run is told of. -/
theorem outcome_cons {l l₁ : Limit} {op : ℤ × LimitOp} {o : Option (Bool × ℤ)}
    (h : l.step op = some (l₁, o)) (ops : List (ℤ × LimitOp)) (last : ℤ × LimitOp) :
    outcome l (op :: (ops ++ [last])) = outcome l₁ (ops ++ [last]) := by
  unfold outcome
  rw [run, h, Option.bind_some, Option.map_map]
  rcases hrun : run Limit.step l₁ (ops ++ [last]) with _ | ⟨t, obs⟩
  · rfl
  · obtain ⟨u, bs₁, bs₂, -, hlast, rfl⟩ := run_append.mp hrun
    obtain ⟨s', b, bs', -, -, rfl⟩ := run_cons_eq_some.mp hlast
    simp [List.getLast?_cons]

/-- Time goes on after the first operation. -/
theorem Timed.tail {s : ℤ} {op : ℤ × LimitOp} {ops : List (ℤ × LimitOp)} (h : Timed s (op :: ops)) :
    s ≤ op.1 ∧ OnClock op.1 ∧ Timed op.1 ops := by
  obtain ⟨hsort, hclock⟩ := h
  rw [List.map_cons, List.pairwise_cons] at hsort
  exact ⟨hsort.1 op.1 List.mem_cons_self, hclock op List.mem_cons_self, hsort.2,
    fun op' hop' => hclock op' (List.mem_cons_of_mem op hop')⟩

/-- **Two runs**, of which the second asks more often, end alike. -/
theorem Ahead.outcome_eq {s : ℤ} {l l' : Limit} (h : Ahead s l l') (hdur : l.HasDurations)
    {ops ops' : List (ℤ × LimitOp)} (hasked : Asked ops ops') {op : ℤ × LimitOp}
    (htimed : Timed s (ops' ++ [op])) : outcome l (ops ++ [op]) = outcome l' (ops' ++ [op]) := by
  induction hasked generalizing s l l' with
  | nil =>
      obtain ⟨hle, hclock, -⟩ := htimed.tail
      obtain ⟨l₁, l₁', o, hs, hs', hagree, -⟩ := (h.mono hle).step hdur hclock op.2
      simp only [outcome, List.nil_append, run_of_step hs, run_of_step hs', Option.map_some,
        hagree.1]
  | same first _ ih =>
      obtain ⟨hle, hclock, htail⟩ := htimed.tail
      obtain ⟨l₁, l₁', o, hs, hs', -, hahead⟩ := (h.mono hle).step hdur hclock first.2
      rw [List.cons_append, List.cons_append, outcome_cons hs, outcome_cons hs']
      exact ih hahead (hdur.congr (step_sameConfig hs)) htail
  | ask now _ ih =>
      obtain ⟨hle, hclock, htail⟩ := htimed.tail
      obtain ⟨l'', r, hallow, hahead⟩ := (h.mono hle).ask hdur hclock
      rw [List.cons_append, outcome_cons (step_allow hallow)]
      exact ih hahead hdur htail

/-- However often a limit is asked in between, the operations end alike: the last of them gives
the same answer, and leaves the same number of failures. -/
def AskingIsFree (l : Limit) : Prop :=
  ∀ s ops ops' op, Asked ops ops' → Timed s (ops' ++ [op]) →
    outcome l (ops ++ [op]) = outcome l (ops' ++ [op])

/-! ## A question without an answer -/

/-- A question put last. -/
theorem asked_append (ops : List (ℤ × LimitOp)) (now : ℤ) : Asked ops (ops ++ [(now, .allow)]) := by
  induction ops with
  | nil => exact .ask now .nil
  | cons op ops ih => exact .same op ih

/-- The failures of a dynamic limit add up. -/
theorem run_fails {l : Limit} (hd : l.dynamicLimit = true) (hm : l.maxTries ≠ 0) (k : ℕ) :
    ∃ l' obs, run Limit.step l (List.replicate k (0, .fail)) = some (l', obs) ∧ SameConfig l l' ∧
      l'.numFailures = l.numFailures + k := by
  induction k generalizing l with
  | zero => exact ⟨l, [], rfl, .refl l, by simp⟩
  | succ k ih =>
      have hc := fail_sameConfig l 0
      have hone : (l.fail 0).numFailures = l.numFailures + 1 := by
        have hkeep : (l.tryReset 0).numFailures = l.numFailures := by
          rcases tryReset_eq_or l 0 with h | h
          · rw [h]
          · rw [h, reset_numFailures, if_pos hd]
        unfold Limit.fail
        rw [if_neg hm, ← hkeep]
        dsimp only
        split_ifs <;> rfl
      obtain ⟨l', obs, hrun, hc', hn⟩ := ih (hc.2.2.2.1.trans hd) (fun h => hm (hc.2.2.1 ▸ h))
      refine ⟨l', none :: obs, run_cons_eq_some.mpr ⟨_, none, obs, rfl, hrun, rfl⟩, hc.trans hc', ?_⟩
      rw [hn, hone]
      push_cast
      omega

/-- Without durations, a question about a locked limit panics. -/
theorem allow_eq_none {l : Limit} (hd : l.dynamicLimit = true) (hm : l.maxTries ≠ 0)
    (hnil : l.dynamicLimitUnlockSecs = []) (hn : l.maxTries ≤ l.numFailures) (now : ℤ) :
    l.allow now = none := by
  have htime : l.getDynamicLimitTime = none := by
    unfold getDynamicLimitTime
    dsimp only
    rw [if_neg (by omega), hnil, if_pos (by simpa using hn)]
    rfl
  unfold allow refresh
  rw [if_neg hm, if_pos hd, htime]
  rfl

/-- What a run comes to once a question in it has panicked. -/
theorem outcome_eq_none {l l₁ : Limit} {ops : List (ℤ × LimitOp)} {obs : List (Option (Bool × ℤ))}
    (hrun : run Limit.step l ops = some (l₁, obs)) {now : ℤ} (hpanic : l₁.allow now = none)
    (last : ℤ × LimitOp) : outcome l (ops ++ [(now, .allow)] ++ [last]) = none := by
  unfold outcome
  rw [Option.map_eq_none_iff, Option.eq_none_iff_forall_ne_some]
  rintro ⟨t, os⟩ h
  obtain ⟨u, os₁, os₂, hfirst, -, -⟩ := run_append.mp h
  obtain ⟨u', os₁', os₂', hrun', hask, -⟩ := run_append.mp hfirst
  rw [hrun, Option.some.injEq, Prod.mk.injEq] at hrun'
  obtain ⟨rfl, rfl⟩ := hrun'
  obtain ⟨s', o, os', hstep, -, -⟩ := run_cons_eq_some.mp hask
  rw [Limit.step, hpanic] at hstep
  cases hstep

/-- Operations that are all made at the epoch. -/
theorem timed_zero {ops : List (ℤ × LimitOp)} (h : ∀ op ∈ ops, op.1 = 0) : Timed 0 ops := by
  have hall : ∀ t ∈ (0 : ℤ) :: ops.map Prod.fst, t = 0 := by
    intro t ht
    rcases List.mem_cons.mp ht with rfl | ht
    · rfl
    · obtain ⟨op, hop, rfl⟩ := List.mem_map.mp ht
      exact h op hop
  refine ⟨List.pairwise_of_forall_mem_list ?_, ?_⟩
  · intro a ha b hb
    rw [hall a ha, hall b hb]
  · intro op hop
    rw [h op hop]
    decide

/-- **Asking is free.** For every limit, questions put in between at instants of the clock's range
change neither the answer to a later question nor the failures counted after a later operation,
exactly when the limit has a duration to look up: an empty list of dynamic durations makes the
first question about a lock panic. -/
theorem askingIsFree_iff (l : Limit) (hlock : l.LockOnClock) : l.AskingIsFree ↔ l.HasDurations := by
  constructor
  · intro hfree hd hm hnil
    -- forget everything, fail up to the lock, and ask
    let ops : List (ℤ × LimitOp) := (0, .resetAll) :: List.replicate l.maxTries.toNat (0, .fail)
    have hc := resetAll_sameConfig l
    obtain ⟨l₁, obs, hrun, hc₁, hn⟩ := run_fails (hc.2.2.2.1.trans hd)
      (fun h => hm (hc.2.2.1 ▸ h)) l.maxTries.toNat
    have hops : run Limit.step l ops = some (l₁, none :: obs) :=
      run_cons_eq_some.mpr ⟨_, none, obs, rfl, hrun, rfl⟩
    have hzero : l.resetAll.numFailures = 0 := by
      rw [resetAll, reset_numFailures]
      simp
    have hpanic : l₁.allow 0 = none := by
      obtain ⟨-, -, hmax, hdyn, hdurs, -⟩ := hc.trans hc₁
      refine allow_eq_none (hdyn.trans hd) (fun h => hm (hmax ▸ h)) (hdurs.trans hnil) ?_ 0
      rw [hmax, hn, hzero]
      omega
    have htimed : Timed 0 (ops ++ [(0, .allow)] ++ [(0, .success)]) := by
      refine timed_zero ?_
      intro op hop
      simp only [ops, List.mem_append, List.mem_cons, List.mem_replicate, List.not_mem_nil,
        or_false] at hop
      rcases hop with ((rfl | ⟨-, rfl⟩) | rfl) | rfl <;> rfl
    have hboth := hfree 0 ops (ops ++ [(0, .allow)]) (0, .success) (asked_append ops 0) htimed
    have hend : run Limit.step l (ops ++ [(0, .success)]) = some (l₁.reset, none :: obs ++ [none]) :=
      run_append.mpr ⟨l₁, _, _, hops, run_of_step rfl, rfl⟩
    rw [outcome_eq_none hops hpanic, outcome, hend] at hboth
    cases hboth
  · intro hdur s ops ops' op hasked htimed
    exact Ahead.outcome_eq ⟨.refl l, hlock, .inl (.refl l)⟩ hdur hasked htimed

/-- A dynamic limit of one try whose configuration lists no durations. -/
def noDurations : Limit :=
  ofConfig ⟨.password, 0, 1, true, []⟩

/-- Two failures lock a limit with two durations, in November 2023. -/
theorem askingIsFree_iff_locked :
    ∃ l obs, run Limit.step (ofConfig ⟨.password, 600, 2, true, [60, 300]⟩)
        [(1700000000000000000, .fail), (1700000001000000000, .fail)] = some (l, obs) ∧
      l.numFailures = 2 ∧ l.lockAt = 1700000001000000000 ∧ l.AskingIsFree := by
  refine ⟨_, _, rfl, rfl, rfl, (askingIsFree_iff _ (Or.inr (by decide))).mpr ?_⟩
  intro _ _ hnil
  cases hnil

/-- One failure locks a limit without durations, and the next question panics; without the question
the second failure is counted. -/
theorem asking_panics :
    ¬ ∀ l : Limit, 0 ≤ l.maxTries → l.LockOnClock → l.AskingIsFree := by
  intro hall
  have h := hall noDurations (by decide) (Or.inl rfl) 0 [(0, .fail)] [(0, .fail), (0, .allow)]
    (0, .fail) (.same _ (.ask 0 .nil)) (timed_zero (by decide))
  exact absurd h (by decide)

end Limit

end LingmoAuthenticate.Limits
