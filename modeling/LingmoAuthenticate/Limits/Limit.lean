import LingmoAuthenticate.Lib.Clock
import LingmoAuthenticate.Lib.Machine
import LingmoAuthenticate.AuthCommon.AuthType

/-!
# One limit: `limit.go`

The counter of failed tries of one authentication type of one user, and its lock. The functions
are those of the Go `limit` type; a `none` is the panic of an index out of range, which only an
empty dynamic list can cause (`allow_isSome_of_ne_nil`).

* A *static* limit locks for `unlockSecs` after `maxTries` failures (for ever when it is
  negative) and forgets the failures when the lock expires.
* A *dynamic* limit never forgets failures on expiry; the lock grows with them along
  `dynamicLimitUnlockSecs`, and `unlockSecs` only caches the current duration. The cache is
  refreshed by `allow` alone, so `fail` may read a stale one.
* Go's counters are 64-bit; `numFailures` is unbounded here, as reaching `2^63` failures is out
  of the question. Durations and instants do wrap, as in the source.
-/

namespace LingmoAuthenticate.Limits

open Lib AuthCommon

/-! ## The limit and its operations -/

/-- A limit as configured.
Source: `limit.go`, `LimitConfig`. -/
structure LimitConfig where
  type : AuthType
  unlockSecs : ℤ
  maxTries : ℤ
  dynamicLimit : Bool
  dynamicLimitUnlockSecs : List ℤ
  deriving DecidableEq, Repr

/-- A limit of a user for a factor: how many failures there were since the last reset, when the last
lock began and the last failure came (in nanoseconds), and the configuration, by which `maxTries`
failures lock the factor for a fixed time or for one that grows. Source: `limit.go`, `limit`. -/
structure Limit where
  type0 : AuthType
  flag : ℕ
  numFailures : ℤ
  lockAt : ℤ
  lastFailAt : ℤ
  unlockSecs : ℤ
  maxTries : ℤ
  dynamicLimit : Bool
  dynamicLimitUnlockSecs : List ℤ
  deriving DecidableEq, Repr

namespace Limit

/-- The lock is taken back; a static limit also forgets its failures, a dynamic one its cached
duration.
Source: `limit.go`, `limit.reset`. -/
def reset (l : Limit) : Limit :=
  let l := { l with lockAt := Time.zero }
  if l.dynamicLimit then { l with unlockSecs := 0 } else { l with numFailures := 0 }

/-- Reset the limit when its lock has expired. All the arithmetic is that of Go's `int64`.
Source: `limit.go`, `limit.tryReset`. -/
def tryReset (l : Limit) (now : ℤ) : Limit :=
  if l.unlockSecs < 0 then l
  else if l.numFailures ≥ l.maxTries ∧ l.maxTries > 0 then
    let unlockDuration := int64 (second * l.unlockSecs)
    let lockAtUn := Time.unixNano l.lockAt
    let nowUn := Time.unixNano now
    if int64 (nowUn - lockAtUn) > unlockDuration then l.reset else l
  else l

/-- The duration of the current lock of a dynamic limit; the last entry serves for all later
failures.
Source: `limit.go`, `limit.getDynamicLimitTime`. -/
def getDynamicLimitTime (l : Limit) : Option ℤ :=
  let failNum := l.numFailures - l.maxTries
  if failNum < 0 then some 0
  else if failNum ≥ l.dynamicLimitUnlockSecs.length then l.dynamicLimitUnlockSecs.getLast?
  else l.dynamicLimitUnlockSecs[failNum.toNat]?

/-- The limit with another cached (or, when static, configured) duration. -/
def setUnlockSecs (l : Limit) (secs : ℤ) : Limit := { l with unlockSecs := secs }

/-- The first part of `allow`: a dynamic limit caches the duration of its current lock.
Source: `limit.go`, `limit.allow`. -/
def refresh (l : Limit) : Option Limit :=
  if l.dynamicLimit then l.getDynamicLimitTime.map l.setUnlockSecs else some l

/-- The last part of `allow`: the answer read off the limit.
Source: `limit.go`, `limit.allow`. -/
def answer (l : Limit) : Bool × ℤ :=
  if l.numFailures < l.maxTries then (true, Time.zero)
  else if l.unlockSecs = 0 then (true, Time.zero)
  else
    let unlockDuration := int64 (second * l.unlockSecs)
    (false, Time.add l.lockAt unlockDuration)

/-- Whether a try is allowed, and when the lock ends otherwise. Asking writes the limit.
Source: `limit.go`, `limit.allow`. -/
def allow (l : Limit) (now : ℤ) : Option ((Bool × ℤ) × Limit) :=
  if l.maxTries = 0 then some ((true, Time.zero), l)
  else l.refresh.map fun l =>
    let l := l.tryReset now
    (l.answer, l)

/-- Count a failed try; from the `maxTries`-th on, (re)start the lock.
Source: `limit.go`, `limit.fail`. -/
def fail (l : Limit) (now : ℤ) : Limit :=
  if l.maxTries = 0 then l
  else
    let l := l.tryReset now
    let l := { l with lastFailAt := now, numFailures := l.numFailures + 1 }
    if l.numFailures ≥ l.maxTries then { l with lockAt := now } else l

/-- What `Manager.resetLimits` does to each limit of a user: forget everything.
Source: `manager.go`, the loop of `Manager.resetLimits`. -/
def resetAll (l : Limit) : Limit := { l with numFailures := 0 }.reset

/-- A limit as `initLimitsByUsername` makes it from its configuration.
Source: `manager.go`, `Manager.initLimitsByUsername`. -/
def ofConfig (c : LimitConfig) : Limit where
  type0 := c.type
  flag := authTypeToFlag c.type
  numFailures := 0
  lockAt := Time.zero
  lastFailAt := Time.zero
  unlockSecs := c.unlockSecs
  maxTries := c.maxTries
  dynamicLimit := c.dynamicLimit
  dynamicLimitUnlockSecs := c.dynamicLimitUnlockSecs

/-- The unlimited limit of a type without configuration.
Source: `manager.go`, `Manager.initLimitsByUsername`. -/
def unlimited (t : AuthType) : Limit where
  type0 := t
  flag := authTypeToFlag t
  numFailures := 0
  lockAt := Time.zero
  lastFailAt := Time.zero
  unlockSecs := 0
  maxTries := 0
  dynamicLimit := false
  dynamicLimitUnlockSecs := []

end Limit

/-- The operations on one limit: the question whether the factor is allowed, a failed try, a
success, which is the `reset` of `Manager.success`, and the reset of everything. -/
inductive LimitOp where
  | allow
  | fail
  | success
  | resetAll
  deriving DecidableEq, Repr

/-- One operation at an instant; an `allow` is observed through its answer. -/
def Limit.step (l : Limit) : ℤ × LimitOp → Option (Limit × Option (Bool × ℤ))
  | (now, .allow) => (l.allow now).map fun r => (r.2, some r.1)
  | (now, .fail) => some (l.fail now, none)
  | (_, .success) => some (l.reset, none)
  | (_, .resetAll) => some (l.resetAll, none)

namespace Limit

/-! ## Fields of the updates -/

section fields

variable (l : Limit) (secs : ℤ)

@[simp] theorem setUnlockSecs_numFailures :
    (l.setUnlockSecs secs).numFailures = l.numFailures := rfl
@[simp] theorem setUnlockSecs_lockAt : (l.setUnlockSecs secs).lockAt = l.lockAt := rfl
@[simp] theorem setUnlockSecs_unlockSecs : (l.setUnlockSecs secs).unlockSecs = secs := rfl
@[simp] theorem setUnlockSecs_maxTries : (l.setUnlockSecs secs).maxTries = l.maxTries := rfl
@[simp] theorem setUnlockSecs_dynamicLimit :
    (l.setUnlockSecs secs).dynamicLimit = l.dynamicLimit := rfl
@[simp] theorem setUnlockSecs_dynamicLimitUnlockSecs :
    (l.setUnlockSecs secs).dynamicLimitUnlockSecs = l.dynamicLimitUnlockSecs := rfl

@[simp] theorem reset_lockAt : l.reset.lockAt = Time.zero := by
  cases h : l.dynamicLimit <;> simp [reset, h]

@[simp] theorem reset_maxTries : l.reset.maxTries = l.maxTries := by
  cases h : l.dynamicLimit <;> simp [reset, h]

@[simp] theorem reset_dynamicLimit : l.reset.dynamicLimit = l.dynamicLimit := by
  cases h : l.dynamicLimit <;> simp [reset, h]

theorem reset_numFailures : l.reset.numFailures = if l.dynamicLimit then l.numFailures else 0 := by
  cases h : l.dynamicLimit <;> simp [reset, h]

theorem reset_unlockSecs : l.reset.unlockSecs = if l.dynamicLimit then 0 else l.unlockSecs := by
  cases h : l.dynamicLimit <;> simp [reset, h]

end fields

/-! ## What the operations leave alone -/

/-- The two limits have one type and one configuration; the static duration is part of it. -/
def SameConfig (l l' : Limit) : Prop :=
  l'.type0 = l.type0 ∧ l'.flag = l.flag ∧ l'.maxTries = l.maxTries ∧
    l'.dynamicLimit = l.dynamicLimit ∧ l'.dynamicLimitUnlockSecs = l.dynamicLimitUnlockSecs ∧
      (l.dynamicLimit = false → l'.unlockSecs = l.unlockSecs)

theorem SameConfig.refl (l : Limit) : SameConfig l l :=
  ⟨rfl, rfl, rfl, rfl, rfl, fun _ => rfl⟩

theorem SameConfig.trans {l₁ l₂ l₃ : Limit} (h : SameConfig l₁ l₂) (h' : SameConfig l₂ l₃) :
    SameConfig l₁ l₃ := by
  obtain ⟨a₁, a₂, a₃, a₄, a₅, a₆⟩ := h
  obtain ⟨b₁, b₂, b₃, b₄, b₅, b₆⟩ := h'
  exact ⟨b₁.trans a₁, b₂.trans a₂, b₃.trans a₃, b₄.trans a₄, b₅.trans a₅,
    fun hd => (b₆ (a₄.trans hd)).trans (a₆ hd)⟩

theorem SameConfig.symm {l₁ l₂ : Limit} (h : SameConfig l₁ l₂) : SameConfig l₂ l₁ := by
  obtain ⟨h₁, h₂, h₃, h₄, h₅, h₆⟩ := h
  exact ⟨h₁.symm, h₂.symm, h₃.symm, h₄.symm, h₅.symm, fun hd => (h₆ (h₄.symm.trans hd)).symm⟩

theorem reset_sameConfig (l : Limit) : SameConfig l l.reset := by
  unfold reset SameConfig
  cases l.dynamicLimit <;> simp

theorem tryReset_eq_or (l : Limit) (now : ℤ) :
    l.tryReset now = l ∨ l.tryReset now = l.reset := by
  unfold tryReset
  dsimp only
  split_ifs <;> simp

/-- A limit below `maxTries` failures has nothing to reset. -/
theorem tryReset_of_lt {l : Limit} {now : ℤ} (hn : l.numFailures < l.maxTries) :
    l.tryReset now = l := by
  unfold tryReset
  split_ifs with h₁ h₂
  · rfl
  · omega
  · rfl

theorem tryReset_sameConfig (l : Limit) (now : ℤ) : SameConfig l (l.tryReset now) := by
  rcases tryReset_eq_or l now with h | h <;> rw [h]
  · exact .refl l
  · exact reset_sameConfig l

theorem fail_sameConfig (l : Limit) (now : ℤ) : SameConfig l (l.fail now) := by
  have h := tryReset_sameConfig l now
  unfold fail
  dsimp only
  split_ifs
  · exact .refl l
  · exact h
  · exact h

theorem resetAll_sameConfig (l : Limit) : SameConfig l l.resetAll :=
  reset_sameConfig { l with numFailures := 0 }

theorem refresh_sameConfig {l l' : Limit} (h : l.refresh = some l') : SameConfig l l' := by
  unfold refresh at h
  split_ifs at h with hd
  · obtain ⟨secs, -, rfl⟩ := Option.map_eq_some_iff.mp h
    exact ⟨rfl, rfl, rfl, rfl, rfl, fun h' => absurd hd (by simp [h'])⟩
  · cases h
    exact .refl l

/-- What `allow` does to a limit that is not unlimited. -/
theorem allow_eq_some {l : Limit} (hm : l.maxTries ≠ 0) {now : ℤ} {r : Bool × ℤ}
    {l' : Limit} :
    l.allow now = some (r, l') ↔
      ∃ l₁, l.refresh = some l₁ ∧ l' = l₁.tryReset now ∧ r = l'.answer := by
  unfold allow
  rw [if_neg hm, Option.map_eq_some_iff]
  constructor
  · rintro ⟨l₁, h₁, h₂⟩
    simp only [Prod.mk.injEq] at h₂
    obtain ⟨rfl, rfl⟩ := h₂
    exact ⟨l₁, h₁, rfl, rfl⟩
  · rintro ⟨l₁, h₁, rfl, rfl⟩
    exact ⟨l₁, h₁, rfl⟩

/-- The answer of a locked limit. -/
theorem answer_of_le {l : Limit} (hn : l.maxTries ≤ l.numFailures) (hu : l.unlockSecs ≠ 0) :
    l.answer = (false, Time.add l.lockAt (int64 (second * l.unlockSecs))) := by
  unfold answer
  rw [if_neg (by omega), if_neg hu]

/-- With no duration left, every question is allowed. -/
theorem answer_of_zero {l : Limit} (h : l.unlockSecs = 0) : l.answer = (true, Time.zero) := by
  unfold answer
  rw [if_pos h, ite_self]

theorem allow_sameConfig {l l' : Limit} {now : ℤ} {r : Bool × ℤ}
    (h : l.allow now = some (r, l')) : SameConfig l l' := by
  by_cases hm : l.maxTries = 0
  · rw [allow, if_pos hm, Option.some.injEq, Prod.mk.injEq] at h
    exact h.2 ▸ .refl l
  · obtain ⟨l₁, h₁, rfl, -⟩ := (allow_eq_some hm).mp h
    exact (refresh_sameConfig h₁).trans (tryReset_sameConfig l₁ now)

/-- No operation touches the configuration. -/
theorem step_sameConfig {l l' : Limit} {op : ℤ × LimitOp} {o : Option (Bool × ℤ)}
    (h : l.step op = some (l', o)) : SameConfig l l' := by
  obtain ⟨now, op⟩ := op
  cases op with
  | allow =>
      obtain ⟨r, hr, h⟩ := Option.map_eq_some_iff.mp h
      cases h
      exact allow_sameConfig hr
  | fail => cases h; exact fail_sameConfig l now
  | success => cases h; exact reset_sameConfig l
  | resetAll => cases h; exact resetAll_sameConfig l

/-- No run of operations touches the configuration. -/
theorem run_sameConfig {l l' : Limit} {ops : List (ℤ × LimitOp)}
    {obs : List (Option (Bool × ℤ))} (h : run step l ops = some (l', obs)) :
    SameConfig l l' :=
  run_invariant_of_step (I := SameConfig l) (fun _ _ _ _ h' hs => h'.trans (step_sameConfig hs))
    (.refl l) h

/-! ## Dynamic durations -/

/-- Below `maxTries` failures a dynamic limit caches the duration zero. -/
theorem getDynamicLimitTime_of_lt {l : Limit} (hn : l.numFailures < l.maxTries) :
    l.getDynamicLimitTime = some 0 := by
  unfold getDynamicLimitTime
  exact if_pos (by omega)

/-- With at least one entry, the dynamic duration exists. -/
theorem getDynamicLimitTime_isSome {l : Limit} (h : l.dynamicLimitUnlockSecs ≠ []) :
    l.getDynamicLimitTime.isSome := by
  unfold getDynamicLimitTime
  dsimp only
  split_ifs with h₁ h₂
  · rfl
  · exact List.getLast?_isSome.mpr h
  · rw [List.getElem?_eq_getElem (by omega)]
    rfl

/-- `allow` can only fail on a dynamic limit with an empty list. -/
theorem allow_isSome_of_ne_nil {l : Limit} (h : l.dynamicLimit = true →
    l.dynamicLimitUnlockSecs ≠ []) (now : ℤ) : (l.allow now).isSome := by
  unfold allow refresh
  split_ifs with hm hd
  · rfl
  · simpa using getDynamicLimitTime_isSome (h hd)
  · rfl

end Limit

end LingmoAuthenticate.Limits
