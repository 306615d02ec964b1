import LingmoAuthenticate.Limits.Table
import LingmoAuthenticate.Limits.Window

/-!
# What closes an open limit

On the range without overflow, whether a limit allows a try is a comparison of mathematical
instants (`Steady.isAllowed_iff`), and what is allowed stays so: time, questions, successes and
resets close no limit. That leaves the failures.

* `Limit.Unlocked` is the comparison, and `LimitTable.isAllowed` the answer of the table.
* `LimitTable.closesOnly_allowTx` and the three lemmas after it: a call on the table closes no
  limit, but for a failure, which closes at most the one it is charged to.
-/

namespace LingmoAuthenticate.Limits

open Lib AuthCommon

namespace Limit

/-- The answer to a question at `now`. -/
def isAllowed (l : Limit) (now : ℤ) : Bool := (l.allow now).elim false fun r => r.1.1

/-- An unlimited limit or one of the range without overflow, with a lock of that range that has
begun, if any. -/
structure Steady (l : Limit) (now : ℤ) : Prop where
  config : l.maxTries = 0 ∨ l.InRange
  lockAt : l.lockAt = Time.zero ∨ (WallClock l.lockAt ∧ l.lockAt ≤ now)

/-- The limit has no lock at `now`: it is unlimited, has tries left, or its lock is over. -/
def Unlocked (l : Limit) (now : ℤ) : Prop :=
  l.maxTries = 0 ∨ l.numFailures < l.maxTries ∨
    (0 ≤ l.lockSecs ∧ l.lockAt + second * l.lockSecs < now)

/-- A duration in range is for ever, or at least a second. -/
theorem InRange.lockSecs_ne_zero {l : Limit} (h : l.InRange) : l.lockSecs ≠ 0 := by
  intro h0
  cases hd : l.dynamicLimit
  · have hs : l.lockSecs = l.unlockSecs := by simp [lockSecs, hd]
    rcases h.static hd with h' | h' <;> omega
  · have := h.lockSecs_dynamic hd
    omega

/-- Caching a duration does not change that of a dynamic limit. -/
theorem refresh_same {l l₁ : Limit} (h : l.refresh = some l₁) :
    l₁.numFailures = l.numFailures ∧ l₁.lockAt = l.lockAt ∧ l₁.lockSecs = l.lockSecs := by
  unfold refresh at h
  split_ifs at h with hd
  · obtain ⟨secs, -, rfl⟩ := Option.map_eq_some_iff.mp h
    refine ⟨rfl, rfl, ?_⟩
    simp [lockSecs, hd]
  · cases h
    exact ⟨rfl, rfl, rfl⟩

/-- A limit whose lock was taken back is not locked. -/
theorem InRange.unlocked_reset {l : Limit} (h : l.InRange) {now : ℤ} (hw : WallClock now) :
    l.reset.Unlocked now := by
  have hm := h.maxTries_pos
  right
  cases hd : l.dynamicLimit
  · left
    rw [reset_numFailures, reset_maxTries, hd]
    exact hm
  · right
    have hb := (h.congr (reset_sameConfig l)).lockSecs_dynamic (by rw [reset_dynamicLimit, hd])
    refine ⟨by omega, ?_⟩
    rw [reset_lockAt]
    unfold WallClock at hw
    unfold Time.zero second
    omega

/-- **Whether a try is allowed**, on the range without overflow. -/
theorem Steady.isAllowed_iff {l : Limit} {now : ℤ} (h : l.Steady now) (hw : WallClock now) :
    l.isAllowed now = true ↔ l.Unlocked now := by
  rcases h.config with hm | hr
  · simp [isAllowed, allow, hm, Unlocked]
  have hm := hr.maxTries_pos
  have hans : ∀ l₁, l.refresh = some l₁ → l.isAllowed now = (l₁.tryReset now).answer.1 := by
    intro l₁ h₁
    rw [isAllowed, (allow_eq_some (by omega)).mpr ⟨l₁, h₁, rfl, rfl⟩]
    rfl
  by_cases hn : l.numFailures < l.maxTries
  · -- tries are left
    refine iff_of_true ?_ (.inr (.inl hn))
    have hfew : ∀ l₁, l.refresh = some l₁ → (l₁.tryReset now).answer.1 = true := by
      intro l₁ h₁
      have hlt : l₁.numFailures < l₁.maxTries := by
        rw [(refresh_same h₁).1, (refresh_sameConfig h₁).2.2.1]
        exact hn
      rw [tryReset_of_lt hlt, answer, if_pos hlt]
    obtain ⟨l₁, h₁⟩ : ∃ l₁, l.refresh = some l₁ := by
      unfold refresh
      rw [getDynamicLimitTime_of_lt hn]
      split_ifs
      · exact ⟨_, rfl⟩
      · exact ⟨_, rfl⟩
    rw [hans l₁ h₁, hfew l₁ h₁]
  · have hn' : l.maxTries ≤ l.numFailures := not_lt.mp hn
    have h₁ := hr.refresh_of_failures hn'
    have hne := hr.lockSecs_ne_zero
    have hstays : (l.setUnlockSecs l.lockSecs).answer.1 = false := by
      rw [answer_of_le (l := l.setUnlockSecs l.lockSecs) hn' hne]
    rw [hans _ h₁]
    by_cases hpos : 0 ≤ l.lockSecs
    · have hb := hr.lockSecs_bounds (by omega)
      rw [tryReset_eq (l := l.setUnlockSecs l.lockSecs) hm hn' hpos hb.2
        (h.lockAt.imp id And.left) hw]
      by_cases hover : l.lockAt + second * l.lockSecs < now
      · -- the lock is over
        have hlt : second * l.lockSecs < now - l.lockAt := by omega
        rw [if_pos (.inr hlt)]
        refine iff_of_true ?_ (.inr (.inr ⟨hpos, hover⟩))
        unfold answer
        rw [reset_numFailures, reset_maxTries, reset_unlockSecs]
        cases hd : l.dynamicLimit <;> simp [hd, hm]
      · rw [if_neg, hstays]
        · refine iff_of_false (by simp) ?_
          rintro (h' | h' | ⟨-, h'⟩)
          · omega
          · omega
          · exact hover h'
        · rw [setUnlockSecs_lockAt, setUnlockSecs_unlockSecs]
          rintro (h0 | hlt)
          · refine hover ?_
            rw [h0]
            unfold WallClock at hw
            unfold Time.zero second
            omega
          · omega
    · -- locked for ever
      rw [tryReset_of_neg (l := l.setUnlockSecs l.lockSecs) (by simpa using hpos), hstays]
      refine iff_of_false (by simp) ?_
      rintro (h' | h' | ⟨h', -⟩) <;> omega

/-! ## What keeps a limit open -/

section keeps

variable {l l' : Limit} {now now' : ℤ}

/-- Time opens limits only. -/
theorem Unlocked.mono (h : l.Unlocked now) (hle : now ≤ now') : l.Unlocked now' := by
  rcases h with h | h | ⟨hpos, h⟩
  · exact .inl h
  · exact .inr (.inl h)
  · exact .inr (.inr ⟨hpos, by omega⟩)

theorem Steady.mono (h : l.Steady now) (hle : now ≤ now') : l.Steady now' :=
  ⟨h.config, h.lockAt.imp id fun h => ⟨h.1, h.2.trans hle⟩⟩

/-- A limit of the same configuration, whose lock is the old one, none or a new one. -/
theorem Steady.congr (h : l.Steady now) (hw : WallClock now) (hs : SameConfig l l')
    (hat : l'.lockAt = l.lockAt ∨ l'.lockAt = Time.zero ∨ l'.lockAt = now) : l'.Steady now := by
  refine ⟨h.config.imp (fun hm => hs.2.2.1.trans hm) fun hr => hr.congr hs, ?_⟩
  rcases hat with hat | hat | hat
  · rw [hat]
    exact h.lockAt
  · exact .inl hat
  · exact .inr ⟨hat ▸ hw, hat.le⟩

/-- Taking a lock back leaves a limit steady and open. -/
theorem Steady.reset (h : l.Steady now) (hw : WallClock now) :
    l.reset.Steady now ∧ l.reset.Unlocked now := by
  refine ⟨h.congr hw (reset_sameConfig l) (.inr (.inl (reset_lockAt l))), ?_⟩
  rcases h.config with hm | hr
  · exact .inl ((reset_maxTries l).trans hm)
  · exact hr.unlocked_reset hw

/-- So does forgetting everything. -/
theorem Steady.resetAll (h : l.Steady now) (hw : WallClock now) :
    l.resetAll.Steady now ∧ l.resetAll.Unlocked now :=
  Steady.reset (l := { l with numFailures := 0 })
    ⟨h.config.imp id fun hr => hr.congr ⟨rfl, rfl, rfl, rfl, rfl, fun _ => rfl⟩, h.lockAt⟩ hw

/-- A failure leaves a limit steady. -/
theorem Steady.fail (h : l.Steady now) (hw : WallClock now) : (l.fail now).Steady now := by
  refine h.congr hw (fail_sameConfig l now) ?_
  have hreset : (l.tryReset now).lockAt = l.lockAt ∨ (l.tryReset now).lockAt = Time.zero := by
    rcases tryReset_eq_or l now with hr | hr <;> rw [hr]
    · exact .inl rfl
    · exact .inr (reset_lockAt l)
  unfold Limit.fail
  dsimp only
  split_ifs
  · exact .inl rfl
  · exact .inr (.inr rfl)
  · exact hreset.imp id .inl

/-- A question leaves a limit steady, and open if it was. -/
theorem Steady.allow (h : l.Steady now) (hw : WallClock now) {r : Bool × ℤ}
    (ha : l.allow now = some (r, l')) : l'.Steady now ∧ (l.Unlocked now → l'.Unlocked now) := by
  by_cases hm : l.maxTries = 0
  · rw [Limit.allow, if_pos hm, Option.some.injEq, Prod.mk.injEq] at ha
    exact ha.2 ▸ ⟨h, id⟩
  · obtain ⟨l₁, h₁, rfl, -⟩ := (allow_eq_some hm).mp ha
    obtain ⟨hn, hat, hsecs⟩ := refresh_same h₁
    have hs₁ := refresh_sameConfig h₁
    have hsteady : l₁.Steady now := h.congr hw hs₁ (.inl hat)
    rcases tryReset_eq_or l₁ now with hr | hr <;> rw [hr]
    · refine ⟨hsteady, ?_⟩
      intro hu
      unfold Unlocked at hu ⊢
      rw [hn, hat, hsecs, hs₁.2.2.1]
      exact hu
    · obtain ⟨hsteady', hopen⟩ := hsteady.reset hw
      exact ⟨hsteady', fun _ => hopen⟩

end keeps

end Limit

/-! ## The limits of a user -/

namespace LimitTable

open Limit (WallClock)

/-- The answer of the table to a question at `now`. -/
def isAllowed (m : LimitTable) (k : UserKey) (t : AuthType) (now : ℤ) : Bool :=
  (m.allowTx k t now).elim false Prod.fst

/-- The limits of the user are steady. -/
def Steady (m : LimitTable) (k : UserKey) (now : ℤ) : Prop :=
  ∀ t l, m.limit k t = some l → l.Steady now

/-- The limits of the user stay steady, and of the open ones at most those of the types in
`closed` are closed. -/
def ClosesOnly (k : UserKey) (now : ℤ) (closed : AuthType → Prop) (m m' : LimitTable) : Prop :=
  ∀ t, Option.Rel (fun l l' : Limit => l.Steady now →
    l'.Steady now ∧ (¬ closed t → l.Unlocked now → l'.Unlocked now)) (m.limit k t) (m'.limit k t)

section lookups

variable {m m' : LimitTable} {k : UserKey} {t u : AuthType} {l l' : Limit} {now : ℤ}
  {closed : AuthType → Prop}

/-- The answer is that of the limit; without one there is no try. -/
theorem isAllowed_eq_true :
    m.isAllowed k t now = true ↔ ∃ l, m.limit k t = some l ∧ l.isAllowed now = true := by
  unfold isAllowed allowTx allow
  rcases m.limit k t with _ | l
  · simp
  · rcases hl : l.allow now with _ | r <;> simp [hl, Limit.isAllowed]

/-- A write through a pointer changes one limit of the user. -/
theorem limit_setLimit (hl : m.limit k u = some l) (t : AuthType) :
    (m.setLimit k u l').limit k t = if t = u then some l' else m.limit k t := by
  obtain ⟨ul, hul, -⟩ := limit_eq_some_iff.mp hl
  unfold limit UserLimits.get
  rw [lookup_setLimit, if_pos rfl, hul]
  simp only [Option.map_some, Option.bind_some]
  split_ifs with ht
  · rw [ht, AList.lookup_insert]
    rfl
  · rw [AList.lookup_insert_ne ht]

/-- A reset changes all the limits of the user. -/
theorem limit_resetLimits (h : m.resetLimits k = some m') (t : AuthType) :
    m'.limit k t = (m.limit k t).map Limit.resetAll := by
  unfold resetLimits at h
  split at h
  · next hul =>
      cases h
      simp [limit, hul]
  · next ul hul =>
      obtain ⟨-, rfl⟩ : _ ∧ m.insert k (ul.mapVal fun _ l => l.map Limit.resetAll) = m' := by
        simpa only [Option.ite_none_right_eq_some, Option.some.injEq] using h
      unfold limit UserLimits.get
      rw [AList.lookup_insert, hul]
      simp only [Option.bind_some, GoMap.lookup_mapVal]
      rcases ul.lookup t with _ | _ | l <;> rfl

/-- Closing less. -/
theorem ClosesOnly.imp {closed' : AuthType → Prop} (h : ClosesOnly k now closed m m')
    (himp : ∀ t, closed t → closed' t) : ClosesOnly k now closed' m m' := by
  intro t
  have ht := h t
  rcases hl : m.limit k t with _ | l <;> rcases hl' : m'.limit k t with _ | l' <;>
    rw [hl, hl'] at ht
  · exact .none
  · cases ht
  · cases ht
  · cases ht with
    | some hrel =>
        refine .some fun hs => ⟨(hrel hs).1, fun hnot => (hrel hs).2 fun hc => hnot ?_⟩
        exact himp t hc

/-- A table that was not written. -/
theorem closesOnly_refl (k : UserKey) (now : ℤ) (closed : AuthType → Prop) (m : LimitTable) :
    ClosesOnly k now closed m m := by
  intro t
  rcases m.limit k t with _ | l
  · exact .none
  · exact .some fun h => ⟨h, fun _ => id⟩

/-- One limit that is written. -/
theorem closesOnly_setLimit (hl : m.limit k u = some l)
    (h : l.Steady now → l'.Steady now ∧ (¬ closed u → l.Unlocked now → l'.Unlocked now)) :
    ClosesOnly k now closed m (m.setLimit k u l') := by
  intro t
  rw [limit_setLimit hl]
  split_ifs with ht
  · subst ht
    rw [hl]
    exact .some h
  · exact closesOnly_refl k now closed m t

/-- **A question closes no limit.** -/
theorem closesOnly_allowTx (hw : WallClock now) {b : Bool}
    (h : m.allowTx k u now = some (b, m')) : ClosesOnly k now closed m m' := by
  unfold allowTx allow at h
  rcases hl : m.limit k u with _ | l <;> rw [hl] at h
  · cases h
    exact closesOnly_refl k now _ m
  · simp only [Option.map_map, Option.map_eq_some_iff] at h
    obtain ⟨⟨r, l'⟩, ha, heq⟩ := h
    cases heq
    refine closesOnly_setLimit hl ?_
    intro hs
    obtain ⟨hs', hopen⟩ := hs.allow hw ha
    exact ⟨hs', fun _ => hopen⟩

/-- **A success closes no limit.** -/
theorem closesOnly_success (hw : WallClock now) :
    ClosesOnly k now closed m ((m.success k u).getD m) := by
  unfold success
  rcases hl : m.limit k u with _ | l
  · exact closesOnly_refl k now _ m
  · refine closesOnly_setLimit hl ?_
    intro hs
    obtain ⟨hs', hopen⟩ := hs.reset hw
    exact ⟨hs', fun _ _ => hopen⟩

/-- **A reset closes no limit.** -/
theorem closesOnly_resetLimits (hw : WallClock now) (h : m.resetLimits k = some m') :
    ClosesOnly k now closed m m' := by
  intro t
  rw [limit_resetLimits h]
  rcases m.limit k t with _ | l
  · exact .none
  · refine .some ?_
    intro hs
    obtain ⟨hs', hopen⟩ := hs.resetAll hw
    exact ⟨hs', fun _ _ => hopen⟩

/-- **A failure closes at most the limit that it is charged to.** -/
theorem closesOnly_fail (hw : WallClock now) (hu : closed u) :
    ClosesOnly k now closed m ((m.fail k u now).getD m) := by
  unfold fail
  rcases hl : m.limit k u with _ | l
  · exact closesOnly_refl k now _ m
  · exact closesOnly_setLimit hl fun hs => ⟨hs.fail hw, fun h => absurd hu h⟩

/-- Steady limits stay steady. -/
theorem ClosesOnly.steady (h : ClosesOnly k now closed m m') (hs : m.Steady k now) :
    m'.Steady k now := by
  intro t l' hl'
  have ht := h t
  rcases hl : m.limit k t with _ | l <;> rw [hl, hl'] at ht
  · cases ht
  · cases ht with
    | some hrel => exact (hrel (hs t l hl)).1

/-- What is open and not closed answers with a yes. -/
theorem ClosesOnly.isAllowed (h : ClosesOnly k now closed m m') (hw : WallClock now)
    (hs : m.Steady k now) (ht : ¬ closed t) (ha : m.isAllowed k t now = true) :
    m'.isAllowed k t now = true := by
  obtain ⟨l, hl, ha⟩ := isAllowed_eq_true.mp ha
  have hsl := hs t l hl
  have hrel := h t
  rw [hl] at hrel
  rcases hl' : m'.limit k t with _ | l' <;> rw [hl'] at hrel
  · cases hrel
  · cases hrel with
    | some hrel =>
        obtain ⟨hs', hopen⟩ := hrel hsl
        refine isAllowed_eq_true.mpr ⟨l', hl', (hs'.isAllowed_iff hw).mpr ?_⟩
        exact hopen ht ((hsl.isAllowed_iff hw).mp ha)

/-- **Time closes no limit.** -/
theorem Steady.isAllowed_mono (hs : m.Steady k now) {now' : ℤ} (hle : now ≤ now')
    (hw : WallClock now) (hw' : WallClock now') (ha : m.isAllowed k t now = true) :
    m.isAllowed k t now' = true := by
  obtain ⟨l, hl, ha⟩ := isAllowed_eq_true.mp ha
  have hsl := hs t l hl
  refine isAllowed_eq_true.mpr ⟨l, hl, ((hsl.mono hle).isAllowed_iff hw').mpr ?_⟩
  exact ((hsl.isAllowed_iff hw).mp ha).mono hle

end lookups

end LimitTable

end LingmoAuthenticate.Limits
