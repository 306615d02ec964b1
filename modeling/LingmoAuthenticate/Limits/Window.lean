import LingmoAuthenticate.Limits.Limit

/-!
# The lockout window of a limit

Which answers `allow` gives after a failure that locks, for configured durations and wall-clock
times on which no 64-bit nanosecond arithmetic wraps (`InRange`, `WallClock`).

* `tryReset_eq`: on that range an expired lock is reset exactly when more than `unlockSecs`
  seconds have passed, and a limit without a lock (`lockAt` zero) always.
* `Locked l t` and `Expired l` are the two phases of a limit after a locking failure at `t`.
  `allow_locked`, `allow_overdue` and `allow_expired` are one question in each phase;
  `run_asks` is any number of questions, by induction over them.
* `lockout_window` collects the law of the window for every limit that any run of operations
  leads to.
-/

namespace LingmoAuthenticate.Limits

open Lib AuthCommon

namespace Limit

/-! ## The range without overflow -/

/-- Wall-clock times on which the nanosecond arithmetic against the zero time does not wrap and
leaves room for a lock of `10^9` seconds: from 1786 to 2046-12-09. -/
def WallClock (t : ℤ) : Prop := -5795364578871345152 < t ∧ t ≤ 2428007457983430655

instance (t : ℤ) : Decidable (WallClock t) := inferInstanceAs (Decidable (_ ∧ _))

/-- A limit that locks, for durations between 1 and `10^9` seconds (or for ever, when static). -/
structure InRange (l : Limit) : Prop where
  maxTries_pos : 0 < l.maxTries
  static : l.dynamicLimit = false →
    l.unlockSecs < 0 ∨ (1 ≤ l.unlockSecs ∧ l.unlockSecs ≤ 1000000000)
  dynamic : l.dynamicLimit = true → l.dynamicLimitUnlockSecs ≠ [] ∧
    ∀ secs ∈ l.dynamicLimitUnlockSecs, 1 ≤ secs ∧ secs ≤ 1000000000

/-- The range is a property of the configuration. -/
theorem InRange.congr {l l' : Limit} (h : l.InRange) (hs : SameConfig l l') : l'.InRange := by
  obtain ⟨-, -, hm, hd, hl, hu⟩ := hs
  refine ⟨hm ▸ h.maxTries_pos, ?_, ?_⟩
  · intro h'
    rw [hu (hd ▸ h')]
    exact h.static (hd ▸ h')
  · intro h'
    rw [hl]
    exact h.dynamic (hd ▸ h')

/-- How long the limit is locked for with its present number of failures: `unlockSecs` when
static, entry `min (numFailures - maxTries) (len - 1)` of the list when dynamic. -/
def lockSecs (l : Limit) : ℤ :=
  if l.dynamicLimit then
    l.dynamicLimitUnlockSecs.getD
      (min (l.numFailures - l.maxTries) (l.dynamicLimitUnlockSecs.length - 1)).toNat 0
  else l.unlockSecs

/-- Caching the duration does not change it. -/
theorem lockSecs_setUnlockSecs (l : Limit) :
    (l.setUnlockSecs l.lockSecs).lockSecs = l.lockSecs := by
  cases hd : l.dynamicLimit <;> simp [lockSecs, hd]

/-- From the `maxTries`-th failure on, the source's indexing is the `min` of `lockSecs`. -/
theorem getDynamicLimitTime_eq {l : Limit} (hd : l.dynamicLimit = true)
    (hne : l.dynamicLimitUnlockSecs ≠ []) (hn : l.maxTries ≤ l.numFailures) :
    l.getDynamicLimitTime = some l.lockSecs := by
  have hlen : 0 < l.dynamicLimitUnlockSecs.length := List.length_pos_iff.mpr hne
  unfold getDynamicLimitTime lockSecs
  rw [if_pos hd]
  dsimp only
  rw [if_neg (by omega)]
  split_ifs with h
  · have hidx : (min (l.numFailures - l.maxTries) (l.dynamicLimitUnlockSecs.length - 1)).toNat =
        l.dynamicLimitUnlockSecs.length - 1 := by omega
    rw [hidx, List.getLast?_eq_getElem?, List.getElem?_eq_getElem (by omega),
      List.getD_eq_getElem _ _ (by omega)]
  · have hidx : (min (l.numFailures - l.maxTries) (l.dynamicLimitUnlockSecs.length - 1)).toNat =
        (l.numFailures - l.maxTries).toNat := by omega
    rw [hidx, List.getElem?_eq_getElem (by omega), List.getD_eq_getElem _ _ (by omega)]

/-- The duration of a dynamic lock is in range. -/
theorem InRange.lockSecs_dynamic {l : Limit} (h : l.InRange) (hd : l.dynamicLimit = true) :
    1 ≤ l.lockSecs ∧ l.lockSecs ≤ 1000000000 := by
  obtain ⟨hne, hall⟩ := h.dynamic hd
  have hlen : 0 < l.dynamicLimitUnlockSecs.length := List.length_pos_iff.mpr hne
  unfold lockSecs
  rw [if_pos hd, List.getD_eq_getElem _ _ (by omega)]
  exact hall _ (List.getElem_mem _)

/-- The duration of a lock that is not for ever is in range. -/
theorem InRange.lockSecs_bounds {l : Limit} (h : l.InRange) (hpos : 0 < l.lockSecs) :
    1 ≤ l.lockSecs ∧ l.lockSecs ≤ 1000000000 := by
  cases hd : l.dynamicLimit
  · have hs : l.lockSecs = l.unlockSecs := by simp [lockSecs, hd]
    rw [hs] at hpos ⊢
    rcases h.static hd with h' | h'
    · omega
    · exact h'
  · exact h.lockSecs_dynamic hd

/-- On the range without overflow, `tryReset` compares mathematical instants. -/
theorem tryReset_eq {l : Limit} {now : ℤ} (hm : 0 < l.maxTries)
    (hn : l.maxTries ≤ l.numFailures) (hu : 0 ≤ l.unlockSecs) (hu' : l.unlockSecs ≤ 1000000000)
    (hl : l.lockAt = Time.zero ∨ WallClock l.lockAt) (hw : WallClock now) :
    l.tryReset now =
      if l.lockAt = Time.zero ∨ second * l.unlockSecs < now - l.lockAt then l.reset else l := by
  have hnow : Time.unixNano now = now :=
    int64_eq_self (by unfold WallClock at hw; constructor <;> omega)
  have hdur : int64 (second * l.unlockSecs) = second * l.unlockSecs :=
    int64_eq_self (by unfold second; constructor <;> omega)
  unfold tryReset
  dsimp only
  rw [if_neg (by omega), if_pos ⟨hn, hm⟩, hnow, hdur]
  rcases hl with hl | hl
  · rw [hl, unixNano_zero, int64_eq_self (by unfold WallClock at hw; constructor <;> omega),
      if_pos (by unfold WallClock at hw; unfold second; omega), if_pos (Or.inl rfl)]
  · have hat : Time.unixNano l.lockAt = l.lockAt :=
      int64_eq_self (by unfold WallClock at hl; constructor <;> omega)
    have hne : l.lockAt ≠ Time.zero := by
      intro h0
      rw [h0] at hl
      exact absurd hl (by decide)
    rw [hat, int64_eq_self (by unfold WallClock at hw hl; constructor <;> omega)]
    simp only [hne, false_or, gt_iff_lt]

/-- A limit that is locked for ever has nothing to reset. -/
theorem tryReset_of_neg {l : Limit} {now : ℤ} (h : l.unlockSecs < 0) : l.tryReset now = l := by
  unfold tryReset
  exact if_pos h

/-! ## The two phases after a locking failure -/

/-- The limit holds a lock that began at `t`: it has all its failures, and remembers the instant. -/
structure Locked (l : Limit) (t : ℤ) : Prop where
  lockAt : l.lockAt = t
  failures : l.maxTries ≤ l.numFailures

/-- The lock of the limit has been found expired: its failures are forgotten when it is static,
and its lock is taken back when it is dynamic. -/
def Expired (l : Limit) : Prop :=
  if l.dynamicLimit then l.lockAt = Time.zero ∧ l.maxTries ≤ l.numFailures
  else l.numFailures = 0

/-- A failure that reaches `maxTries` locks from now on, whatever stale duration it found. -/
theorem fail_locked {l : Limit} {now : ℤ} (hm : 0 < l.maxTries)
    (hn : (l.fail now).maxTries ≤ (l.fail now).numFailures) : (l.fail now).Locked now := by
  refine ⟨?_, hn⟩
  have hmt : (l.fail now).maxTries = l.maxTries := (fail_sameConfig l now).2.2.1
  have hmr : (l.tryReset now).maxTries = l.maxTries := (tryReset_sameConfig l now).2.2.1
  rw [hmt] at hn
  unfold fail at hn ⊢
  rw [if_neg (by omega)] at hn ⊢
  dsimp only at hn ⊢
  split_ifs with h
  · rfl
  · rw [if_neg h] at hn
    exact absurd hn (by rw [hmr] at h; exact h)

/-- What `allow` finds of a lock after refreshing the cached duration. -/
theorem InRange.refresh_of_failures {l : Limit} (h : l.InRange)
    (hn : l.maxTries ≤ l.numFailures) : l.refresh = some (l.setUnlockSecs l.lockSecs) := by
  unfold refresh
  cases hd : l.dynamicLimit
  · have hs : l.lockSecs = l.unlockSecs := by simp [lockSecs, hd]
    rw [hs]
    rfl
  · rw [if_pos rfl, getDynamicLimitTime_eq hd (h.dynamic hd).1 hn]
    rfl

/-- Taking the lock back makes a limit expired. -/
theorem reset_expired {l : Limit} (hn : l.maxTries ≤ l.numFailures) : l.reset.Expired := by
  unfold Expired
  rw [reset_dynamicLimit, reset_lockAt, reset_maxTries, reset_numFailures]
  cases hd : l.dynamicLimit
  · simp
  · simpa using hn

/-- The answer during a lock of `d` seconds from `t`: refused up to and including `t + d`,
allowed after. -/
def windowAnswer (t : ℤ) (d : ℤ) (now : ℤ) : Bool × ℤ :=
  if now ≤ t + second * d then (false, t + second * d) else (true, Time.zero)

section phases

variable {l : Limit} {t now : ℤ}

/-- Asking a locked limit in time: refused until `t + d`, and still locked. -/
theorem InRange.allow_locked (h : l.InRange) (hl : l.Locked t) (ht : WallClock t)
    (hw : WallClock now) (hpos : 0 < l.lockSecs) (hin : now ≤ t + second * l.lockSecs) :
    l.allow now = some ((false, t + second * l.lockSecs), l.setUnlockSecs l.lockSecs) := by
  have hb := h.lockSecs_bounds hpos
  have hm := h.maxTries_pos
  have hu : 0 ≤ l.lockSecs := by omega
  refine (allow_eq_some (by omega)).mpr ⟨_, h.refresh_of_failures hl.failures, ?_, ?_⟩
  · rw [tryReset_eq (l := l.setUnlockSecs l.lockSecs) hm hl.failures hu hb.2
      (Or.inr (hl.lockAt ▸ ht)) hw, if_neg]
    rw [setUnlockSecs_lockAt, setUnlockSecs_unlockSecs, hl.lockAt]
    rintro (h0 | hlt)
    · exact absurd (h0 ▸ ht) (by decide)
    · omega
  · have hu0 : l.lockSecs ≠ 0 := by omega
    rw [answer_of_le (l := l.setUnlockSecs l.lockSecs) hl.failures hu0, setUnlockSecs_lockAt,
      setUnlockSecs_unlockSecs, hl.lockAt,
      int64_eq_self (by unfold second; constructor <;> omega)]
    rfl

/-- Asking a locked limit too late: allowed, and the lock has expired. -/
theorem InRange.allow_overdue (h : l.InRange) (hl : l.Locked t) (ht : WallClock t)
    (hw : WallClock now) (hpos : 0 < l.lockSecs) (hout : t + second * l.lockSecs < now) :
    l.allow now = some ((true, Time.zero), (l.setUnlockSecs l.lockSecs).reset) := by
  have hb := h.lockSecs_bounds hpos
  have hm := h.maxTries_pos
  have hu : 0 ≤ l.lockSecs := by omega
  refine (allow_eq_some (by omega)).mpr ⟨_, h.refresh_of_failures hl.failures, ?_, ?_⟩
  · rw [tryReset_eq (l := l.setUnlockSecs l.lockSecs) hm hl.failures hu hb.2
      (Or.inr (hl.lockAt ▸ ht)) hw, if_pos]
    right
    rw [setUnlockSecs_lockAt, setUnlockSecs_unlockSecs, hl.lockAt]
    omega
  · unfold answer
    rw [reset_numFailures, reset_maxTries, reset_unlockSecs]
    cases hd : l.dynamicLimit <;> simp [hd, hm]

/-- Asking after the lock was found expired: allowed, and still expired. -/
theorem InRange.allow_expired (h : l.InRange) (he : l.Expired) (hw : WallClock now) :
    ∃ l', l.allow now = some ((true, Time.zero), l') ∧ l'.Expired ∧
      l'.numFailures = l.numFailures := by
  have hm := h.maxTries_pos
  unfold Expired at he
  cases hd : l.dynamicLimit
  · rw [hd] at he
    simp only [Bool.false_eq_true, if_false] at he
    refine ⟨l, (allow_eq_some (by omega)).mpr ⟨l, ?_, ?_, ?_⟩, ?_, rfl⟩
    · simp [refresh, hd]
    · rw [tryReset_of_lt (by omega)]
    · unfold answer
      rw [if_pos (by omega)]
    · simp [Expired, hd, he]
  · rw [hd, if_pos rfl] at he
    obtain ⟨h0, hn⟩ := he
    have hb := h.lockSecs_dynamic hd
    have hu : 0 ≤ l.lockSecs := by omega
    refine ⟨(l.setUnlockSecs l.lockSecs).reset,
      (allow_eq_some (by omega)).mpr ⟨_, h.refresh_of_failures hn, ?_, ?_⟩,
      reset_expired (l := l.setUnlockSecs l.lockSecs) hn, ?_⟩
    · rw [tryReset_eq (l := l.setUnlockSecs l.lockSecs) hm hn hu hb.2 (Or.inl h0) hw,
        if_pos (Or.inl (show (l.setUnlockSecs l.lockSecs).lockAt = Time.zero from h0))]
    · simp [answer, reset_unlockSecs, hd]
    · simp [reset_numFailures, hd]

end phases

/-! ## Any number of questions -/

/-- Questions at non-decreasing wall-clock times from `t` on. -/
def Asks (t : ℤ) (asks : List ℤ) : Prop :=
  (t :: asks).Pairwise (· ≤ ·) ∧ ∀ a ∈ asks, WallClock a

/-- The operations that put the questions. -/
def askOps (asks : List ℤ) : List (ℤ × LimitOp) := asks.map fun a => (a, .allow)

theorem step_allow {l l' : Limit} {now : ℤ} {r : Bool × ℤ}
    (h : l.allow now = some (r, l')) : l.step (now, .allow) = some (l', some r) := by
  simp [Limit.step, h]

/-- An expired lock stays expired under questions, and allows every time. -/
theorem InRange.run_asks_expired {l : Limit} (h : l.InRange) (he : l.Expired) {asks : List ℤ}
    (hw : ∀ a ∈ asks, WallClock a) :
    ∃ l', run Limit.step l (askOps asks) =
        some (l', asks.map fun _ => some (true, Time.zero)) ∧ l'.Expired ∧
      l'.numFailures = l.numFailures := by
  induction asks generalizing l with
  | nil => exact ⟨l, rfl, he, rfl⟩
  | cons a asks ih =>
      obtain ⟨l₁, h₁, he₁, hn₁⟩ := h.allow_expired he (hw a List.mem_cons_self)
      obtain ⟨l', h', he', hn'⟩ := ih (h.congr (allow_sameConfig h₁)) he₁
        fun b hb => hw b (List.mem_cons_of_mem _ hb)
      exact ⟨l', run_cons_eq_some.mpr ⟨l₁, _, _, step_allow h₁, h', rfl⟩, he', hn'.trans hn₁⟩

/-- **Questions to a locked limit** are answered by the window alone: refused up to and including
`t + d`, allowed after. A question after the window leaves the limit expired, and until then it
stays locked. -/
theorem InRange.run_asks {l : Limit} (h : l.InRange) {t s : ℤ} (hl : l.Locked t)
    (ht : WallClock t) (hpos : 0 < l.lockSecs) {asks : List ℤ} (ha : Asks s asks) :
    ∃ l', run Limit.step l (askOps asks) =
        some (l', asks.map fun a => some (windowAnswer t l.lockSecs a)) ∧
      ((∀ a ∈ asks, a ≤ t + second * l.lockSecs) → l'.Locked t ∧
        l'.lockSecs = l.lockSecs ∧ l'.numFailures = l.numFailures) ∧
      ((∃ a ∈ asks, t + second * l.lockSecs < a) → l'.Expired ∧
        l'.numFailures = if l.dynamicLimit then l.numFailures else 0) := by
  induction asks generalizing l s with
  | nil => exact ⟨l, rfl, fun _ => ⟨hl, rfl, rfl⟩, by simp⟩
  | cons a asks ih =>
      obtain ⟨hsort, hwall⟩ := ha
      have hsort' := (List.pairwise_cons.mp hsort).2
      have hwa := hwall a List.mem_cons_self
      have hrest : ∀ b ∈ asks, WallClock b := fun b hb => hwall b (List.mem_cons_of_mem _ hb)
      by_cases hin : a ≤ t + second * l.lockSecs
      · -- still inside the window: the limit stays locked, only the cached duration changes
        have h₁ := h.allow_locked hl ht hwa hpos hin
        have hs₁ := l.lockSecs_setUnlockSecs
        obtain ⟨l', h', hin', hout'⟩ := ih (h.congr (allow_sameConfig h₁))
          (l := l.setUnlockSecs l.lockSecs) ⟨hl.lockAt, hl.failures⟩
          (by rw [hs₁]; exact hpos) ⟨hsort', hrest⟩
        rw [hs₁] at h' hin' hout'
        refine ⟨l', run_cons_eq_some.mpr ⟨_, _, _, step_allow h₁, h', ?_⟩, ?_, ?_⟩
        · simp [windowAnswer, hin]
        · exact fun hall => hin' fun b hb => hall b (List.mem_cons_of_mem _ hb)
        · rintro ⟨b, hb, hlt⟩
          rcases List.mem_cons.mp hb with rfl | hb'
          · exact absurd hin (not_le.mpr hlt)
          · exact hout' ⟨b, hb', hlt⟩
      · -- the window is over: this question and all later ones are allowed
        have hout : t + second * l.lockSecs < a := not_le.mp hin
        have h₁ := h.allow_overdue hl ht hwa hpos hout
        have he₁ : (l.setUnlockSecs l.lockSecs).reset.Expired :=
          reset_expired hl.failures
        obtain ⟨l', h', he', hn'⟩ :=
          (h.congr (allow_sameConfig h₁)).run_asks_expired he₁ hrest
        refine ⟨l', run_cons_eq_some.mpr ⟨_, _, _, step_allow h₁, h', ?_⟩, ?_, ?_⟩
        · have hlate : ∀ b ∈ asks, ¬ b ≤ t + second * l.lockSecs := fun b hb => by
            have := (List.pairwise_cons.mp hsort').1 b hb
            omega
          simp only [List.map_cons, windowAnswer, if_neg hin, List.cons.injEq, true_and]
          exact List.map_congr_left fun b hb => by rw [if_neg (hlate b hb)]
        · exact fun hall => absurd (hall a List.mem_cons_self) hin
        · intro _
          refine ⟨he', hn'.trans ?_⟩
          rw [reset_numFailures]
          rfl

/-- Questions to a limit that is locked for ever are all refused, and change nothing. -/
theorem run_asks_forever {l : Limit} (hm : 0 < l.maxTries) (hd : l.dynamicLimit = false)
    (hn : l.maxTries ≤ l.numFailures) (hu : l.unlockSecs < 0) (asks : List ℤ) :
    ∃ obs, run Limit.step l (askOps asks) = some (l, obs) ∧
      ∀ o ∈ obs, ∃ until_, o = some (false, until_) := by
  induction asks with
  | nil => exact ⟨[], rfl, by simp⟩
  | cons a asks ih =>
      obtain ⟨obs, h', hobs⟩ := ih
      have h₁ : l.allow a =
          some ((false, Time.add l.lockAt (int64 (second * l.unlockSecs))), l) := by
        refine (allow_eq_some (by omega)).mpr ⟨l, by simp [refresh, hd], ?_, ?_⟩
        · rw [tryReset_of_neg hu]
        · rw [answer_of_le hn (by omega)]
      refine ⟨_, run_cons_eq_some.mpr ⟨l, _, obs, step_allow h₁, h', rfl⟩, ?_⟩
      intro o ho
      rcases List.mem_cons.mp ho with rfl | ho'
      · exact ⟨_, rfl⟩
      · exact hobs o ho'

/-! ## The law of the window -/

/-- The first failure after a static lock is over counts from zero again. -/
theorem InRange.fail_overdue {l : Limit} (h : l.InRange) (hd : l.dynamicLimit = false)
    {t now : ℤ} (hl : l.Locked t) (ht : WallClock t) (hw : WallClock now)
    (hpos : 0 < l.lockSecs) (hout : t + second * l.lockSecs < now) :
    (l.fail now).numFailures = 1 := by
  have hm := h.maxTries_pos
  have hb := h.lockSecs_bounds hpos
  have hs : l.lockSecs = l.unlockSecs := by simp [lockSecs, hd]
  rw [hs] at hb hout
  have hreset : l.tryReset now = l.reset := by
    rw [tryReset_eq hm hl.failures (by omega) hb.2 (Or.inr (hl.lockAt ▸ ht)) hw, if_pos]
    right
    rw [hl.lockAt]
    omega
  have hzero : l.reset.numFailures = 0 := by simp [reset, hd]
  unfold fail
  rw [if_neg (by omega), hreset]
  dsimp only
  split_ifs <;> simp [hzero]

/-- A failure counted from zero. -/
theorem fail_of_zero {l : Limit} (hm : 0 < l.maxTries) (hn : l.numFailures = 0) (now : ℤ) :
    (l.fail now).numFailures = 1 := by
  unfold fail
  rw [if_neg (by omega), tryReset_of_lt (by omega)]
  dsimp only
  split_ifs <;> simp [hn]

/-- Only forgetting everything makes a dynamic counter smaller. -/
theorem numFailures_le_of_step {l l' : Limit} (hd : l.dynamicLimit = true) {now : ℤ}
    {op : LimitOp} (hop : op ≠ .resetAll) {o : Option (Bool × ℤ)}
    (h : l.step (now, op) = some (l', o)) : l.numFailures ≤ l'.numFailures := by
  have hreset : ∀ l₁ : Limit, l₁.dynamicLimit = true → l₁.reset.numFailures = l₁.numFailures :=
    fun l₁ h₁ => by simp [reset_numFailures, h₁]
  have htry : ∀ l₁ : Limit, l₁.dynamicLimit = true →
      (l₁.tryReset now).numFailures = l₁.numFailures := fun l₁ h₁ => by
    rcases tryReset_eq_or l₁ now with h₂ | h₂ <;> rw [h₂]
    exact hreset l₁ h₁
  cases op with
  | allow =>
      obtain ⟨r, hr, h⟩ := Option.map_eq_some_iff.mp h
      cases h
      by_cases hm : l.maxTries = 0
      · rw [allow, if_pos hm, Option.some.injEq] at hr
        exact hr ▸ le_rfl
      · obtain ⟨l₁, h₁, h₂, -⟩ := (allow_eq_some hm).mp hr
        rw [refresh, if_pos hd] at h₁
        obtain ⟨secs, -, rfl⟩ := Option.map_eq_some_iff.mp h₁
        rw [h₂, htry (l.setUnlockSecs secs) hd]
        rfl
  | fail =>
      cases h
      unfold fail
      dsimp only
      split_ifs <;> simp [htry l hd]
  | success =>
      cases h
      exact (hreset l hd).ge
  | resetAll => exact absurd rfl hop

/-- **The law of the lockout window** at a limit, for questions and failures that come next. -/
structure LockoutLaw (l : Limit) : Prop where
  /-- Below `maxTries` failures every try is allowed. -/
  allowed_below : l.numFailures < l.maxTries →
    ∀ now, ∃ l', l.allow now = some ((true, Time.zero), l')
  /-- After a failure at `t` that locks for `d` seconds, questions are answered by the window
  `[t, t + d]` alone. Once the window is over a static limit has forgotten its failures, and the
  next failure counts as the first. -/
  window : ∀ t, WallClock t → (l.fail t).maxTries ≤ (l.fail t).numFailures →
    0 < (l.fail t).lockSecs → ∀ asks, Asks t asks →
      ∃ l', run Limit.step (l.fail t) (askOps asks) =
          some (l', asks.map fun a => some (windowAnswer t (l.fail t).lockSecs a)) ∧
        l'.numFailures = (if l.dynamicLimit = false ∧
            ∃ a ∈ asks, t + second * (l.fail t).lockSecs < a then 0
          else (l.fail t).numFailures) ∧
        (l.dynamicLimit = false → ∀ now, WallClock now →
          t + second * (l.fail t).lockSecs < now → (l'.fail now).numFailures = 1)
  /-- After a failure that locks for ever, every question is refused. -/
  forever : ∀ t, (l.fail t).maxTries ≤ (l.fail t).numFailures → l.dynamicLimit = false →
    l.unlockSecs < 0 → ∀ asks, ∃ obs,
      run Limit.step (l.fail t) (askOps asks) = some (l.fail t, obs) ∧
        ∀ o ∈ obs, ∃ until_, o = some (false, until_)
  /-- A dynamic counter never gets smaller but by forgetting everything. -/
  dynamic_mono : l.dynamicLimit = true → ∀ now op l' o, op ≠ .resetAll →
    l.step (now, op) = some (l', o) → l.numFailures ≤ l'.numFailures

theorem InRange.lockoutLaw {l : Limit} (h : l.InRange) : l.LockoutLaw where
  allowed_below hn now := by
    have hm := h.maxTries_pos
    cases hd : l.dynamicLimit
    · refine ⟨l, (allow_eq_some (by omega)).mpr ⟨l, by simp [refresh, hd], ?_, ?_⟩⟩
      · rw [tryReset_of_lt hn]
      · simp [answer, hn]
    · refine ⟨l.setUnlockSecs 0, (allow_eq_some (by omega)).mpr ⟨l.setUnlockSecs 0, ?_, ?_, ?_⟩⟩
      · rw [refresh, if_pos hd, getDynamicLimitTime_of_lt hn]
        rfl
      · rw [tryReset_of_lt (l := l.setUnlockSecs 0) hn]
      · simp [answer, hn]
  window t ht hn hpos asks ha := by
    have hc := fail_sameConfig l t
    have hf := h.congr hc
    have hl := fail_locked h.maxTries_pos hn
    have hdyn : (l.fail t).dynamicLimit = l.dynamicLimit := hc.2.2.2.1
    obtain ⟨l', hrun, hin, hout⟩ := hf.run_asks hl ht hpos ha
    have hf' := hf.congr (run_sameConfig hrun)
    have hdyn' : l'.dynamicLimit = l.dynamicLimit := (run_sameConfig hrun).2.2.2.1.trans hdyn
    refine ⟨l', hrun, ?_, ?_⟩
    · by_cases hlate : ∃ a ∈ asks, t + second * (l.fail t).lockSecs < a
      · rw [(hout hlate).2, hdyn]
        cases hd : l.dynamicLimit <;> simp [hlate]
      · push Not at hlate
        rw [if_neg (by push Not; exact fun _ => hlate), (hin hlate).2.2]
    · intro hd now hw hnow
      by_cases hlate : ∃ a ∈ asks, t + second * (l.fail t).lockSecs < a
      · have hz : l'.numFailures = 0 := by rw [(hout hlate).2, hdyn, hd]; simp
        exact fail_of_zero hf'.maxTries_pos hz now
      · push Not at hlate
        obtain ⟨hl', hs', -⟩ := hin hlate
        exact hf'.fail_overdue (hdyn'.trans hd) hl' ht hw (by rw [hs']; exact hpos)
          (by rw [hs']; exact hnow)
  forever t hn hd hu asks := by
    have hc := fail_sameConfig l t
    exact run_asks_forever (hc.2.2.1 ▸ h.maxTries_pos) (hc.2.2.2.1.trans hd) hn
      (hc.2.2.2.2.2 hd ▸ hu) asks
  dynamic_mono hd now op l' o hop hs := numFailures_le_of_step hd hop hs

/-- **The exact lockout window.** From a limit in range, every sequence of operations can be
carried out, and leads to a limit that obeys the law of the window. -/
theorem lockout_window {l₀ : Limit} (h : l₀.InRange) (hist : List (ℤ × LimitOp)) :
    ∃ l obs, run Limit.step l₀ hist = some (l, obs) ∧ l.LockoutLaw := by
  suffices hrun : ∃ l obs, run Limit.step l₀ hist = some (l, obs) by
    obtain ⟨l, obs, hr⟩ := hrun
    exact ⟨l, obs, hr, (h.congr (run_sameConfig hr)).lockoutLaw⟩
  induction hist generalizing l₀ with
  | nil => exact ⟨l₀, [], rfl⟩
  | cons op hist ih =>
      have hsome : (l₀.step op).isSome := by
        obtain ⟨now, op⟩ := op
        cases op with
        | allow =>
            simpa [Limit.step] using allow_isSome_of_ne_nil (fun hd => (h.dynamic hd).1) now
        | fail => rfl
        | success => rfl
        | resetAll => rfl
      obtain ⟨⟨l₁, o⟩, h₁⟩ := Option.isSome_iff_exists.mp hsome
      obtain ⟨l, obs, hr⟩ := ih (h.congr (step_sameConfig h₁))
      exact ⟨l, o :: obs, run_cons_eq_some.mpr ⟨l₁, o, obs, h₁, hr, rfl⟩⟩

/-- The law at the limit of the example configuration: three tries, then a lock of 60 seconds. -/
theorem lockout_window_three_tries :
    InRange (ofConfig ⟨.password, 60, 3, false, []⟩) ∧
      ∃ l obs, run Limit.step (ofConfig ⟨.password, 60, 3, false, []⟩)
          [(0, .fail), (1, .allow), (2, .fail), (3, .success), (4, .resetAll)] = some (l, obs) ∧
        l.LockoutLaw :=
  have h : InRange (ofConfig ⟨.password, 60, 3, false, []⟩) :=
    ⟨by decide, fun _ => Or.inr (by decide), fun h => absurd h (by decide)⟩
  ⟨h, lockout_window h _⟩

end Limit

end LingmoAuthenticate.Limits
