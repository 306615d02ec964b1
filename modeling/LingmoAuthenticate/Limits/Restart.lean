import LingmoAuthenticate.Limits.Snapshot

/-!
# A restart neither lifts, shortens nor adds a lock

Only the type, the failures and the lock time of a limit are written to disk. A restarted manager
therefore differs from the one it replaces in the cached duration of its dynamic limits and in the
time of the last failure, and nobody can tell.

* `LimitRel`: two limits that differ in these two fields only. `LimitRel.allow` and
  `LimitRel.fail` keep it; a stale duration makes `fail` take another branch, but to the same
  counter and lock.
* `LimitTable.Rel` lifts a relation to tables, and `simulates_limitRel` says that related tables
  take the same calls, with the same answers.
* `step_from` says what one call can do to one user; from it `run_fromConfig`: every table reached
  holds limits made from the configuration.
* `restart_bisimilar` puts a snapshot and its loading in between.
-/

namespace LingmoAuthenticate.Limits

open Lib AuthCommon

/-! ## Limits that differ in what is not written -/

namespace Limit

/-- The limits agree on everything but the cached duration of a dynamic limit and the time of the
last failure. -/
structure LimitRel (l l' : Limit) : Prop where
  config : SameConfig l l'
  failures : l'.numFailures = l.numFailures
  lockAt : l'.lockAt = l.lockAt

section related

variable {l l' : Limit}

theorem LimitRel.maxTries (h : LimitRel l l') : l'.maxTries = l.maxTries := h.config.2.2.1

theorem LimitRel.dynamicLimit (h : LimitRel l l') : l'.dynamicLimit = l.dynamicLimit :=
  h.config.2.2.2.1

theorem LimitRel.refl (l : Limit) : LimitRel l l := ⟨.refl l, rfl, rfl⟩

/-- The reset limits are related. -/
theorem LimitRel.reset (h : LimitRel l l') : LimitRel l.reset l'.reset := by
  refine ⟨?_, ?_, ?_⟩
  · exact (reset_sameConfig l).symm.trans (h.config.trans (reset_sameConfig l'))
  · rw [reset_numFailures, reset_numFailures, h.dynamicLimit, h.failures]
  · rw [reset_lockAt, reset_lockAt]

/-- Forgetting everything keeps the limits related. -/
theorem LimitRel.resetAll (h : LimitRel l l') : LimitRel l.resetAll l'.resetAll :=
  LimitRel.reset ⟨h.config, rfl, h.lockAt⟩

/-- With one duration, both limits are reset or none is. -/
theorem LimitRel.tryReset_both (h : LimitRel l l') (hu : l'.unlockSecs = l.unlockSecs) (now : ℤ) :
    (l.tryReset now = l ∧ l'.tryReset now = l') ∨
      (l.tryReset now = l.reset ∧ l'.tryReset now = l'.reset) := by
  unfold tryReset
  rw [hu, h.failures, h.lockAt, h.maxTries]
  dsimp only
  split_ifs <;> simp

/-- With one duration, `tryReset` keeps the limits related and the duration one. -/
theorem LimitRel.tryReset (h : LimitRel l l') (hu : l'.unlockSecs = l.unlockSecs) (now : ℤ) :
    LimitRel (l.tryReset now) (l'.tryReset now) ∧
      (l'.tryReset now).unlockSecs = (l.tryReset now).unlockSecs := by
  rcases h.tryReset_both hu now with ⟨h₁, h₂⟩ | ⟨h₁, h₂⟩ <;> rw [h₁, h₂]
  · exact ⟨h, hu⟩
  · refine ⟨h.reset, ?_⟩
    rw [reset_unlockSecs, reset_unlockSecs, h.dynamicLimit, hu]

/-- With one duration, the limits give one answer. -/
theorem LimitRel.answer (h : LimitRel l l') (hu : l'.unlockSecs = l.unlockSecs) :
    l'.answer = l.answer := by
  unfold Limit.answer
  rw [hu, h.failures, h.lockAt, h.maxTries]

/-- Refreshing the cached duration makes it one: a dynamic duration is looked up, and a static one
is configured. -/
theorem LimitRel.refresh (h : LimitRel l l') :
    Option.Rel (fun l l' => LimitRel l l' ∧ l'.unlockSecs = l.unlockSecs) l.refresh l'.refresh := by
  have hdyn := h.dynamicLimit
  have hlook : l'.getDynamicLimitTime = l.getDynamicLimitTime := by
    unfold getDynamicLimitTime
    rw [h.failures, h.maxTries, h.config.2.2.2.2.1]
  unfold Limit.refresh
  rw [hdyn]
  cases hd : l.dynamicLimit
  · exact .some ⟨h, h.config.2.2.2.2.2 hd⟩
  · rw [hlook, if_pos rfl, if_pos rfl]
    rcases l.getDynamicLimitTime with _ | secs
    · exact .none
    · obtain ⟨h₁, h₂, h₃, h₄, h₅, -⟩ := h.config
      refine .some ⟨⟨⟨h₁, h₂, h₃, h₄, h₅, ?_⟩, h.failures, h.lockAt⟩, rfl⟩
      intro hs
      exact absurd (hd.symm.trans hs) (by simp)

/-- **Questions** get one answer, and keep the limits related. -/
theorem LimitRel.allow (h : LimitRel l l') (now : ℤ) :
    Option.Rel (fun p q => p.1 = q.1 ∧ LimitRel p.2 q.2) (l.allow now) (l'.allow now) := by
  unfold Limit.allow
  rw [h.maxTries]
  split_ifs with hm
  · exact .some ⟨rfl, h⟩
  · have hr := h.refresh
    rcases h₁ : l.refresh with _ | l₁ <;> rcases h₂ : l'.refresh with _ | l₂ <;> rw [h₁, h₂] at hr
    · exact .none
    · cases hr
    · cases hr
    · obtain ⟨hrel, hu⟩ := Option.rel_some_some.mp hr
      obtain ⟨hrel', hu'⟩ := hrel.tryReset hu now
      exact .some ⟨(hrel'.answer hu').symm, hrel'⟩

/-- What a failure leaves of a dynamic limit does not depend on the cached duration: the lock that
`tryReset` takes back starts again at once. -/
theorem fail_of_dynamic {l : Limit} (hd : l.dynamicLimit = true) (hm : l.maxTries ≠ 0) (now : ℤ) :
    (l.fail now).numFailures = l.numFailures + 1 ∧
      (l.fail now).lockAt = if l.numFailures + 1 ≥ l.maxTries then now else l.lockAt := by
  have hn : (l.tryReset now).numFailures = l.numFailures := by
    rcases tryReset_eq_or l now with h | h <;> rw [h]
    rw [reset_numFailures, hd]
    rfl
  have hmt : (l.tryReset now).maxTries = l.maxTries := (tryReset_sameConfig l now).2.2.1
  unfold fail
  rw [if_neg hm]
  dsimp only
  rw [hn, hmt]
  split_ifs with hge
  · exact ⟨rfl, rfl⟩
  · refine ⟨rfl, ?_⟩
    rw [tryReset_of_lt (by omega)]

/-- **Failures** keep the limits related. -/
theorem LimitRel.fail (h : LimitRel l l') (now : ℤ) : LimitRel (l.fail now) (l'.fail now) := by
  by_cases hm : l.maxTries = 0
  · have hm' : l'.maxTries = 0 := h.maxTries.trans hm
    unfold Limit.fail
    rw [if_pos hm, if_pos hm']
    exact h
  · refine ⟨(fail_sameConfig l now).symm.trans (h.config.trans (fail_sameConfig l' now)), ?_, ?_⟩
      <;> cases hd : l.dynamicLimit
    -- a static limit has one duration, so that both take the same branch
    · exact (failStatic hd).1
    · rw [(fail_of_dynamic hd hm now).1,
        (fail_of_dynamic (h.dynamicLimit.trans hd) (h.maxTries.symm ▸ hm) now).1, h.failures]
    · exact (failStatic hd).2
    · rw [(fail_of_dynamic hd hm now).2,
        (fail_of_dynamic (h.dynamicLimit.trans hd) (h.maxTries.symm ▸ hm) now).2, h.failures,
        h.maxTries, h.lockAt]
where
  failStatic (hd : l.dynamicLimit = false) :
      (l'.fail now).numFailures = (l.fail now).numFailures ∧
        (l'.fail now).lockAt = (l.fail now).lockAt := by
    obtain ⟨hrel, -⟩ := h.tryReset (h.config.2.2.2.2.2 hd) now
    unfold Limit.fail
    dsimp only
    rw [h.maxTries, hrel.failures, hrel.maxTries]
    split_ifs
    · exact ⟨h.failures, h.lockAt⟩
    · exact ⟨rfl, rfl⟩
    · exact ⟨rfl, hrel.lockAt⟩

end related

end Limit

/-! ## Related tables -/

/-- Users with limits of the same types, related type by type. -/
def UserLimits.Rel (R : Limit → Limit → Prop) (ul ul' : UserLimits) : Prop :=
  ∀ t, Option.Rel (Option.Rel R) (ul.lookup t) (ul'.lookup t)

/-- Tables with the same users, related user by user. -/
def LimitTable.Rel (R : Limit → Limit → Prop) (m m' : LimitTable) : Prop :=
  ∀ k, Option.Rel (UserLimits.Rel R) (m.lookup k) (m'.lookup k)

section rel

/-- Related values have related images. -/
theorem optionRel_map {α β γ δ : Type*} {R : α → β → Prop} {S : γ → δ → Prop} {f : α → γ}
    {g : β → δ} (hfg : ∀ a b, R a b → S (f a) (g b)) {o : Option α} {o' : Option β}
    (h : Option.Rel R o o') : Option.Rel S (o.map f) (o'.map g) := by
  rcases h with h | _
  · exact .some (hfg _ _ h)
  · exact .none

/-- A value related to all the images. -/
theorem optionRel_map_right {α β δ : Type*} {R : α → β → Prop} {S : α → δ → Prop} {g : β → δ}
    (hg : ∀ a b, R a b → S a (g b)) {o : Option α} {o' : Option β} (h : Option.Rel R o o') :
    Option.Rel S o (o'.map g) := by
  rcases h with h | _
  · exact .some (hg _ _ h)
  · exact .none

variable {R : Limit → Limit → Prop} {ul ul' : UserLimits} {m m' : LimitTable} {k : UserKey}
  {t : AuthType} {l l' : Limit}

theorem UserLimits.Rel.refl (hR : ∀ l, R l l) (ul : UserLimits) : ul.Rel R ul := by
  intro t
  rcases ul.lookup t with _ | _ | l
  · exact .none
  · exact .some .none
  · exact .some (.some (hR l))

theorem UserLimits.Rel.insert (h : ul.Rel R ul') (hR : R l l') :
    UserLimits.Rel R (ul.insert t (some l)) (ul'.insert t (some l')) := by
  intro u
  by_cases hu : u = t
  · rw [hu, AList.lookup_insert, AList.lookup_insert]
    exact .some (.some hR)
  · rw [AList.lookup_insert_ne hu, AList.lookup_insert_ne hu]
    exact h u

/-- Changing every limit in a related way. -/
theorem UserLimits.Rel.map (h : ul.Rel R ul') {f g : Limit → Limit}
    (hfg : ∀ l l', R l l' → R (f l) (g l')) :
    UserLimits.Rel R (ul.mapVal fun _ l => l.map f) (ul'.mapVal fun _ l => l.map g) := by
  intro t
  rw [GoMap.lookup_mapVal, GoMap.lookup_mapVal]
  exact optionRel_map (R := Option.Rel R) (fun _ _ ho => optionRel_map hfg ho) (h t)

/-- Related tables have related limits. -/
theorem LimitTable.Rel.limit (h : m.Rel R m') (k : UserKey) (t : AuthType) :
    Option.Rel R (m.limit k t) (m'.limit k t) := by
  have hk := h k
  unfold LimitTable.limit
  rcases h₁ : m.lookup k with _ | ul <;> rcases h₂ : m'.lookup k with _ | ul' <;> rw [h₁, h₂] at hk
  · exact .none
  · cases hk
  · cases hk
  · have ht := Option.rel_some_some.mp hk t
    simp only [Option.bind_some, UserLimits.get]
    rcases h₁ : ul.lookup t with _ | o <;> rcases h₂ : ul'.lookup t with _ | o' <;>
      rw [h₁, h₂] at ht
    · exact .none
    · cases ht
    · cases ht
    · exact Option.rel_some_some.mp ht

theorem LimitTable.Rel.insert (h : m.Rel R m') (hul : ul.Rel R ul') :
    LimitTable.Rel R (m.insert k ul) (m'.insert k ul') := by
  intro k'
  by_cases hk : k' = k
  · rw [hk, AList.lookup_insert, AList.lookup_insert]
    exact .some hul
  · rw [AList.lookup_insert_ne hk, AList.lookup_insert_ne hk]
    exact h k'

/-- Related writes keep the tables related. -/
theorem LimitTable.Rel.setLimit (h : m.Rel R m') (hR : R l l') :
    LimitTable.Rel R (m.setLimit k t l) (m'.setLimit k t l') := by
  have hk := h k
  unfold LimitTable.setLimit
  rcases h₁ : m.lookup k with _ | ul <;> rcases h₂ : m'.lookup k with _ | ul' <;> rw [h₁, h₂] at hk
  · exact h
  · cases hk
  · cases hk
  · exact h.insert ((Option.rel_some_some.mp hk).insert hR)

/-- A related change of one limit, where there is one, keeps the tables related. -/
theorem LimitTable.Rel.update (h : m.Rel R m') {f g : Limit → Limit}
    (hfg : ∀ l l', R l l' → R (f l) (g l')) :
    LimitTable.Rel R (((m.limit k t).map fun l => m.setLimit k t (f l)).getD m)
      (((m'.limit k t).map fun l => m'.setLimit k t (g l)).getD m') := by
  have hl := h.limit k t
  rcases h₁ : m.limit k t with _ | l <;> rcases h₂ : m'.limit k t with _ | l' <;> rw [h₁, h₂] at hl
  · exact h
  · cases hl
  · cases hl
  · exact h.setLimit (hfg l l' (Option.rel_some_some.mp hl))

/-- In related tables, the same users have no nil entry. -/
theorem UserLimits.Rel.isSome_iff (h : ul.Rel R ul') :
    (∀ e ∈ ul.entries, e.2.isSome) ↔ ∀ e ∈ ul'.entries, e.2.isSome := by
  have hside : ∀ ul : UserLimits,
      (∀ e ∈ ul.entries, e.2.isSome) ↔ ∀ t, ul.lookup t ≠ some none := by
    intro ul
    constructor
    · intro hall t ht
      simpa using hall ⟨t, none⟩ (AList.mem_lookup_iff.mp ht)
    · rintro hall ⟨t, _ | l⟩ he
      · exact absurd (AList.mem_lookup_iff.mpr he) (hall t)
      · rfl
  rw [hside, hside]
  refine forall_congr' fun t => not_congr ?_
  have ht := h t
  rcases h₁ : ul.lookup t with _ | _ | l <;> rcases h₂ : ul'.lookup t with _ | _ | l' <;>
    rw [h₁, h₂] at ht <;> simp at ht ⊢

end rel

/-- **Related tables take the same calls, with the same answers.** -/
theorem simulates_limitRel (config : List (Option LimitConfig)) :
    Simulates (LimitTable.Rel Limit.LimitRel) (LimitTable.step config)
      (LimitTable.step config) := by
  rintro m m' ⟨now, op⟩ h
  cases op with
  | initLimitsByUsername k =>
      have hk := h k
      simp only [LimitTable.step, LimitTable.initLimitsByUsername]
      rcases h₁ : m.lookup k with _ | ul <;> rcases h₂ : m'.lookup k with _ | ul' <;>
        rw [h₁, h₂] at hk
      · rcases newUserLimits config with _ | base
        · exact .none
        · exact .some ⟨h.insert (.refl .refl base), rfl⟩
      · cases hk
      · cases hk
      · exact .some ⟨h, rfl⟩
  | allow k t =>
      have hl := h.limit k t
      simp only [LimitTable.step, LimitTable.allow]
      rcases h₁ : m.limit k t with _ | l <;> rcases h₂ : m'.limit k t with _ | l' <;>
        rw [h₁, h₂] at hl
      · exact .some ⟨h, rfl⟩
      · cases hl
      · cases hl
      · simp only [Option.map_map]
        exact optionRel_map (fun p q hpq => ⟨h.setLimit hpq.2, congrArg some hpq.1⟩)
          ((Option.rel_some_some.mp hl).allow now)
  | fail k t => exact .some ⟨h.update fun l l' hl => hl.fail now, rfl⟩
  | success k t => exact .some ⟨h.update fun l l' hl => hl.reset, rfl⟩
  | resetLimits k =>
      have hk := h k
      simp only [LimitTable.step, LimitTable.resetLimits]
      rcases h₁ : m.lookup k with _ | ul <;> rcases h₂ : m'.lookup k with _ | ul' <;>
        rw [h₁, h₂] at hk
      · exact .some ⟨h, rfl⟩
      · cases hk
      · cases hk
      · have hul := Option.rel_some_some.mp hk
        simp only [hul.isSome_iff]
        split_ifs with hsome
        · exact .some ⟨h.insert (hul.map fun l l' hl => hl.resetAll), rfl⟩
        · exact .none
  | userListChanged existUserList =>
      refine .some ⟨?_, rfl⟩
      intro k
      rw [LimitTable.lookup_deleteUsers, LimitTable.lookup_deleteUsers]
      split_ifs
      · exact h k
      · exact .none

/-! ## Every table reached comes from the configuration -/

section config

variable {R : Limit → Limit → Prop} {base ul ul' : UserLimits} {m m' : LimitTable}

/-- Putting in a limit that is related to the one there. -/
theorem UserLimits.Rel.insert_right (h : ul.Rel R ul') {t : AuthType} {l : Limit}
    (hR : ∀ o, ul.lookup t = some o → ∃ l₀, o = some l₀ ∧ R l₀ l)
    (ht : (ul.lookup t).isSome) : ul.Rel R (ul'.insert t (some l)) := by
  intro u
  by_cases hu : u = t
  · rw [hu, AList.lookup_insert]
    obtain ⟨o, ho⟩ := Option.isSome_iff_exists.mp ht
    obtain ⟨l₀, rfl, hl₀⟩ := hR o ho
    rw [ho]
    exact .some (.some hl₀)
  · rw [AList.lookup_insert_ne hu]
    exact h u

/-- Writing a limit that is there. -/
theorem UserLimits.Rel.update (h : base.Rel R ul) {t : AuthType} {l l' : Limit}
    (hl : ul.lookup t = some (some l)) (hR : ∀ l₀, R l₀ l → R l₀ l') :
    base.Rel R (ul.insert t (some l')) := by
  have ht := h t
  rw [hl] at ht
  rcases hb : base.lookup t with _ | _ | l₀ <;> rw [hb] at ht
  · cases ht
  · cases Option.rel_some_some.mp ht
  · have hl₀ := Option.rel_some_some.mp (Option.rel_some_some.mp ht)
    apply h.insert_right
    · intro o ho
      rw [hb, Option.some.injEq] at ho
      exact ⟨l₀, ho.symm, hR l₀ hl₀⟩
    · rw [hb]
      rfl

/-- Every user of the table has limits that are related to those of a new user. -/
def LimitTable.From (R : Limit → Limit → Prop) (base : UserLimits) (m : LimitTable) : Prop :=
  ∀ k ul, m.lookup k = some ul → base.Rel R ul

/-- A relation to the limit of a new user that questions and resets keep, so that it still holds
after any calls that are not failures. -/
structure Limit.Kept (R : Limit → Limit → Prop) : Prop where
  allow : ∀ l₀ l now r l', R l₀ l → l.allow now = some (r, l') → R l₀ l'
  reset : ∀ l₀ l, R l₀ l → R l₀ l.reset
  resetAll : ∀ l₀ l, R l₀ l → R l₀ l.resetAll

/-- Every user of the table has the limits of a new user, with other failures and locks. -/
def LimitTable.FromConfig (base : UserLimits) (m : LimitTable) : Prop :=
  ∀ k ul, m.lookup k = some ul → base.Rel Limit.SameConfig ul

theorem Limit.kept_sameConfig : Kept SameConfig where
  allow _ _ _ _ _ h ha := h.trans (allow_sameConfig ha)
  reset _ l h := h.trans (reset_sameConfig l)
  resetAll _ l h := h.trans (resetAll_sameConfig l)

/-- Where the limits of a user are those of a new user, they are complete. -/
theorem UserLimits.WellFormed.of_rel (h : base.WellFormed)
    (hrel : base.Rel Limit.SameConfig ul) : ul.WellFormed := by
  constructor
  · intro t ht
    have hrel := hrel t
    obtain ⟨o, ho⟩ := Option.isSome_iff_exists.mp (h.complete t ht)
    rcases h₁ : ul.lookup t with _ | o'
    · rw [ho, h₁] at hrel
      cases hrel
    · rfl
  · intro t o ho
    have hrel := hrel t
    rcases hb : base.lookup t with _ | o₀
    · rw [hb, ho] at hrel
      cases hrel
    · obtain ⟨l₀, rfl, ht, hf, h0⟩ := h.keyed t o₀ hb
      rw [hb, ho, Option.rel_some_some] at hrel
      rcases o with _ | l
      · cases hrel
      · obtain ⟨h₁, h₂, -⟩ := Option.rel_some_some.mp hrel
        exact ⟨l, rfl, h₁.trans ht, h₂.trans hf, h0⟩

/-- Writing a limit of a user of such a table. -/
theorem LimitTable.From.setLimit (h : m.From R base) {k : UserKey} {t : AuthType}
    {l l' : Limit} (hl : m.limit k t = some l) (hR : ∀ l₀, R l₀ l → R l₀ l') :
    LimitTable.From R base (m.setLimit k t l') := by
  intro k' ul hul
  rw [LimitTable.lookup_setLimit] at hul
  split_ifs at hul with hk
  · obtain ⟨ul₀, h₀, rfl⟩ := Option.map_eq_some_iff.mp hul
    obtain ⟨ul₁, h₁, hl₁⟩ := LimitTable.limit_eq_some_iff.mp hl
    obtain rfl : ul₀ = ul₁ := Option.some.inj (h₀.symm.trans h₁)
    exact (h k ul₀ h₀).update hl₁ hR
  · exact h k' ul hul

/-- **One call**, of a relation that a failure of the limit keeps, too. -/
theorem step_from {config : List (Option LimitConfig)} (hR : Limit.Kept R)
    (hbase : newUserLimits config = some base) (hrefl : base.Rel R base) (h : m.From R base)
    {op : ℤ × TableOp} {o : Option (Bool × ℤ)}
    (hfail : ∀ k t l l₀, op.2 = .fail k t → m.limit k t = some l → R l₀ l → R l₀ (l.fail op.1))
    (hs : m.step config op = some (m', o)) : m'.From R base := by
  obtain ⟨now, op⟩ := op
  cases op with
  | initLimitsByUsername k =>
      obtain ⟨m₁, h₁, hs⟩ := Option.map_eq_some_iff.mp hs
      cases hs
      obtain ⟨hself, hother⟩ := lookup_initLimitsByUsername hbase h₁
      intro k' ul hul
      by_cases hk : k' = k
      · rw [hk, hself, Option.some.injEq] at hul
        rcases hm : m.lookup k with _ | ul₀
        · rw [hm] at hul
          exact hul ▸ hrefl
        · rw [hm] at hul
          exact hul ▸ h k ul₀ hm
      · rw [hother k' hk] at hul
        exact h k' ul hul
  | allow k t =>
      obtain ⟨r, hr, hs⟩ := Option.map_eq_some_iff.mp hs
      cases hs
      unfold LimitTable.allow at hr
      rcases hl : m.limit k t with _ | l <;> rw [hl] at hr
      · cases hr
        exact h
      · obtain ⟨⟨r, l'⟩, hr', rfl⟩ := Option.map_eq_some_iff.mp hr
        exact h.setLimit hl fun l₀ h₀ => hR.allow l₀ l now r l' h₀ hr'
  | fail k t =>
      cases hs
      unfold LimitTable.fail
      rcases hl : m.limit k t with _ | l
      · exact h
      · exact h.setLimit hl fun l₀ => hfail k t l l₀ rfl hl
  | success k t =>
      cases hs
      unfold LimitTable.success
      rcases hl : m.limit k t with _ | l
      · exact h
      · exact h.setLimit hl fun l₀ => hR.reset l₀ l
  | resetLimits k =>
      obtain ⟨m₁, h₁, hs⟩ := Option.map_eq_some_iff.mp hs
      cases hs
      unfold LimitTable.resetLimits at h₁
      rcases hk : m.lookup k with _ | ul₀ <;> rw [hk] at h₁
      · cases h₁
        exact h
      · simp only [Option.ite_none_right_eq_some, Option.some.injEq] at h₁
        obtain ⟨-, rfl⟩ := h₁
        intro k' ul hul
        by_cases hkk : k' = k
        · rw [hkk, AList.lookup_insert, Option.some.injEq] at hul
          subst hul
          intro t
          rw [GoMap.lookup_mapVal]
          exact optionRel_map_right (R := Option.Rel R)
            (fun _ _ ho => optionRel_map_right hR.resetAll ho) (h k ul₀ hk t)
        · rw [AList.lookup_insert_ne hkk] at hul
          exact h k' ul hul
  | userListChanged existUserList =>
      cases hs
      intro k ul hul
      rw [LimitTable.lookup_deleteUsers] at hul
      split_ifs at hul
      exact h k ul hul

/-- No call takes the limits away from the configuration. -/
theorem step_fromConfig {config : List (Option LimitConfig)}
    (hbase : newUserLimits config = some base) (h : m.FromConfig base) {op : ℤ × TableOp}
    {o : Option (Bool × ℤ)} (hs : m.step config op = some (m', o)) : m'.FromConfig base :=
  step_from Limit.kept_sameConfig hbase (.refl .refl base) h
    (fun _ _ l _ _ _ h₀ => h₀.trans (Limit.fail_sameConfig l op.1)) hs

/-- No run of calls takes the limits away from the configuration. -/
theorem run_fromConfig {config : List (Option LimitConfig)}
    (hbase : newUserLimits config = some base) (h : m.FromConfig base) {ops : List (ℤ × TableOp)}
    {obs : List (Option (Bool × ℤ))}
    (hr : run (LimitTable.step config) m ops = some (m', obs)) : m'.FromConfig base :=
  run_invariant_of_step (fun _ _ _ _ h hs => step_fromConfig hbase h hs) h hr

/-- Loading states into the limits of a user, of a relation that this keeps. -/
theorem UserLimits.Rel.loadAll {states : List LimitState}
    (hR : ∀ s ∈ states, ∀ l₀ l, R l₀ l → R l₀ (l.load s)) (h : base.Rel R ul) :
    base.Rel R (states.foldl UserLimits.loadState ul) := by
  induction states generalizing ul with
  | nil => exact h
  | cons s states ih =>
      obtain ⟨hs, hstates⟩ := List.forall_mem_cons.mp hR
      refine ih hstates ?_
      unfold UserLimits.loadState
      rcases hl : ul.get s.type with _ | l
      · exact h
      · unfold UserLimits.get at hl
        rw [Option.join_eq_some_iff] at hl
        exact h.update hl fun l₀ => hs l₀ l

/-- Loading states leaves the configuration. -/
theorem UserLimits.Rel.loadStates (states : List LimitState)
    (h : base.Rel Limit.SameConfig ul) :
    base.Rel Limit.SameConfig (states.foldl UserLimits.loadState ul) :=
  h.loadAll fun _ _ _ _ h₀ => h₀

/-- A table loaded into the empty one comes from the configuration. -/
theorem loadLimitStates_fromConfig {config : List (Option LimitConfig)}
    (hbase : newUserLimits config = some base) {states : LimitStates}
    {order : List (Σ _ : UserKey, List LimitState)} (horder : states.Ranges order)
    (h : LimitTable.loadLimitStates config ∅ order = some m) : m.FromConfig base := by
  intro k ul hul
  rw [lookup_loadLimitStates hbase horder h, AList.lookup_empty] at hul
  rcases hk : states.lookup k with _ | list <;> rw [hk] at hul
  · cases hul
  · cases hul
    exact UserLimits.Rel.loadStates list (.refl .refl base)

end config

/-! ## The restart -/

/-- A limit read back from its state, over the limit of a new user. -/
theorem Limit.limitRel_load {l₀ l : Limit} (h : SameConfig l₀ l) :
    LimitRel l (l₀.load l.state) :=
  ⟨h.symm, rfl, rfl⟩

/-- Related limits have counted the same failures. -/
theorem Limit.numFailures_eq_of_rel {o o' : Option Limit} (h : Option.Rel LimitRel o o') :
    o.map numFailures = o'.map numFailures := by
  rcases h with h | _
  · exact congrArg some h.failures.symm
  · rfl

/-- A snapshot that is loaded again gives a related table. -/
theorem reload_limitRel {config : List (Option LimitConfig)} {base : UserLimits}
    (hbase : newUserLimits config = some base) {m m' : LimitTable} (hm : m.FromConfig base)
    {order : StatesOrder} {states : LimitStates} (hstates : m.getLimitStates order = some states)
    {order' : List (Σ _ : UserKey, List LimitState)} (horder' : states.Ranges order')
    (hload : LimitTable.loadLimitStates config ∅ order' = some m') :
    m.Rel Limit.LimitRel m' := by
  have hwf := newUserLimits_wellFormed hbase
  have hmwf : m.WellFormed := fun k ul hul => hwf.of_rel (hm k ul hul)
  intro k
  rw [lookup_loadLimitStates hbase horder' hload, lookup_getLimitStates hmwf hstates,
    AList.lookup_empty]
  rcases hk : m.lookup k with _ | ul
  · exact .none
  · refine .some ?_
    intro t
    have hul := hmwf k ul hk
    have hranges := order.limits_ranges k ul
    obtain ⟨hin, hout⟩ := lookup_loadStates (hul.statesOf_nodup hranges) base
    have ht := hm k ul hk t
    rcases hlt : ul.lookup t with _ | o
    · -- a type without a limit has no state either, and the new user has none
      rw [Option.getD_none, hout t]
      · rw [hlt] at ht
        rcases hb : base.lookup t with _ | o₀ <;> rw [hb] at ht
        · exact .none
        · cases ht
      · intro hmem
        obtain ⟨s, hs, rfl⟩ := List.mem_map.mp hmem
        obtain ⟨l, hl, -⟩ := (hul.mem_statesOf hranges).mp hs
        rw [hlt] at hl
        cases hl
    · -- a limit is read back over the limit that the new user has for its type
      obtain ⟨l, rfl, htype, -⟩ := hul.keyed t o hlt
      have hs : l.state ∈ statesOf (order.limits k ul) :=
        (hul.mem_statesOf hranges).mpr ⟨l, by rw [show l.state.type = t from htype]; exact hlt, rfl⟩
      have hlook := hin l.state hs
      rw [show l.state.type = t from htype] at hlook
      rw [Option.getD_none, hlook]
      rw [hlt] at ht
      rcases hb : base.lookup t with _ | _ | l₀ <;> rw [hb] at ht
      · cases ht
      · cases Option.rel_some_some.mp ht
      · have hl₀ := Option.rel_some_some.mp (Option.rel_some_some.mp ht)
        exact .some (.some (Limit.limitRel_load hl₀))

/-- **A restart cannot be told.** Start the manager on any files, let it serve any calls, save,
and start another one on what was saved: for every further sequence of calls the two give the same
answers and count the same failures, whatever the orders in which the maps are visited. -/
theorem restart_bisimilar {config : List (Option LimitConfig)} (hconfig : none ∉ config)
    {files₀ : StateFiles} {order₀ : List (Σ _ : UserKey, List LimitState)}
    (horder₀ : files₀.states.Ranges order₀) {t₀ t : LimitTable}
    (hinit : LimitTable.loadLimitStates config ∅ order₀ = some t₀)
    {hist : List (ℤ × TableOp)} {obs : List (Option (Bool × ℤ))}
    (hrun : run (LimitTable.step config) t₀ hist = some (t, obs)) (order : StatesOrder) :
    ∃ states, t.getLimitStates order = some states ∧
      ∀ order', (saveLimitStates states).states.Ranges order' →
        ∃ t', LimitTable.loadLimitStates config ∅ order' = some t' ∧
          ∀ ops, Option.Rel
            (fun p q => p.2 = q.2 ∧ ∀ k type, (p.1.limit k type).map Limit.numFailures =
              (q.1.limit k type).map Limit.numFailures)
            (run (LimitTable.step config) t ops) (run (LimitTable.step config) t' ops) := by
  obtain ⟨base, hbase⟩ := Option.isSome_iff_exists.mp (newUserLimits_isSome hconfig)
  have ht : t.FromConfig base :=
    run_fromConfig hbase (loadLimitStates_fromConfig hbase horder₀ hinit) hrun
  have htwf : t.WellFormed := fun k ul hul =>
    (newUserLimits_wellFormed hbase).of_rel (ht k ul hul)
  obtain ⟨states, hstates⟩ := Option.isSome_iff_exists.mp (getLimitStates_isSome htwf order)
  refine ⟨states, hstates, ?_⟩
  intro order' horder'
  obtain ⟨t', ht'⟩ := Option.isSome_iff_exists.mp
    (loadLimitStates_isSome (newUserLimits_isSome hconfig) ∅ order')
  refine ⟨t', ht', ?_⟩
  intro ops
  have hrel := reload_limitRel hbase ht hstates horder' ht'
  have hruns := (simulates_limitRel config).run hrel ops
  rcases h₁ : run (LimitTable.step config) t ops with _ | p <;>
    rcases h₂ : run (LimitTable.step config) t' ops with _ | q <;> rw [h₁, h₂] at hruns
  · exact .none
  · cases hruns
  · cases hruns
  · obtain ⟨hR, hobs⟩ := Option.rel_some_some.mp hruns
    refine .some ⟨hobs, ?_⟩
    intro k type
    exact Limit.numFailures_eq_of_rel (hR.limit k type)

/-- A configuration of one dynamic limit: two tries, then a lock of 60 and of 300 seconds. -/
def twoTries : List (Option LimitConfig) := [some ⟨.password, 0, 2, true, [60, 300]⟩]

/-- A restart after the second failure, in the middle of the lock that it began. -/
theorem restart_bisimilar_two_tries :
    ∃ t₀ t obs states t', LimitTable.loadLimitStates twoTries ∅ [] = some t₀ ∧
      run (LimitTable.step twoTries) t₀ [(0, .initLimitsByUsername (.Local, "uos")),
        (1, .fail (.Local, "uos") .password), (2, .allow (.Local, "uos") .password),
        (3, .fail (.Local, "uos") .password)] = some (t, obs) ∧
      t.getLimitStates .listed = some states ∧
      LimitTable.loadLimitStates twoTries ∅ states.entries = some t' ∧
      ∀ ops, Option.Rel
        (fun p q => p.2 = q.2 ∧ ∀ k type, (p.1.limit k type).map Limit.numFailures =
          (q.1.limit k type).map Limit.numFailures)
        (run (LimitTable.step twoTries) t ops) (run (LimitTable.step twoTries) t' ops) := by
  obtain ⟨⟨t, obs⟩, hrun⟩ : ∃ r, run (LimitTable.step twoTries) ∅
      [(0, .initLimitsByUsername (.Local, "uos")),
        (1, .fail (.Local, "uos") .password), (2, .allow (.Local, "uos") .password),
        (3, .fail (.Local, "uos") .password)] = some r :=
    Option.isSome_iff_exists.mp (by decide)
  obtain ⟨states, hstates, hrest⟩ := @restart_bisimilar twoTries (by decide)
    ⟨.missing, .missing⟩ [] (List.Perm.refl _) ∅ t rfl _ obs hrun .listed
  obtain ⟨t', ht', hops⟩ := hrest states.entries (List.Perm.refl _)
  exact ⟨∅, t, obs, states, t', rfl, hrun, hstates, ht', hops⟩

end LingmoAuthenticate.Limits
