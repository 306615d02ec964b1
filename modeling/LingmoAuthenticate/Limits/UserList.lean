import LingmoAuthenticate.Limits.Allowed
import LingmoAuthenticate.Limits.Restart

/-!
# A changed list of accounts and the locks of those that are still listed

The handler of a new list asks, for every account that is listed, for its object and then for its
user name; either call may fail. It then deletes the limits of every user whose name it has not
got, so that an account whose lookup failed loses its locks, and the next `Authenticate` or
`GetLimits` makes fresh ones.

* `LimitTable.userListChanged` is the handler, and `WatchedLimits.step` the machine of all the calls
  on the limits, with their clock.
* `Limit.refuses_fail_iff`: a failure leaves a refused factor refused, unless the lock that it
  starts has no length.
* `WatchedLimits.keeps_iff`: one action keeps what it has to exactly when no lookup of a listed user
  with limits fails (and no such lock is started).
* `WatchedLimits.listed_keep_locks_iff` says the same of whole runs.
-/

namespace LingmoAuthenticate.Limits

open Lib AuthCommon

/-! ## The handler -/

/-- An account of the new list: its user name, and the errors of the two calls that look it up, the
one that makes the object and the one that reads the name. -/
structure ListedUser where
  userName : String
  newUserErr : Option String
  userNameErr : Option String
  deriving DecidableEq, Repr

/-- The user name that the handler gets.
Source: `manager.go`, the first loop of `Manager.initLimitsUserListWatcher`. -/
def ListedUser.lookup (u : ListedUser) : Option String :=
  if u.newUserErr.isSome then none
  else if u.userNameErr.isSome then none
  else some u.userName

/-- Source: `manager.go`, `existUserList` in `Manager.initLimitsUserListWatcher`. -/
def existUserList (userList : List ListedUser) : List String := userList.filterMap ListedUser.lookup

/-- The users of a list. -/
def listedUsers (userList : List ListedUser) : List String := userList.map ListedUser.userName

/-- The handler of a change of the list, with its last call.
Source: `manager.go`, the handler in `Manager.initLimitsUserListWatcher`. -/
def LimitTable.userListChanged (m : LimitTable) (hasValue : Bool) (userList : List ListedUser) :
    Option LimitTable :=
  if hasValue then (m.deleteUsers (existUserList userList)).resetLimits (.Local, "") else some m

/-- The limits and the clock that they are asked by. -/
structure WatchedLimits where
  limits : LimitTable
  now : ℤ

/-- What happens to the limits: a call on the table, of which `Authenticate`, `GetLimits` and the
updates consist, the handler of a list, or time. -/
inductive WatchedAction where
  | call (op : TableOp)
  | userListChanged (hasValue : Bool) (userList : List ListedUser)
  | tick (now : ℤ)
  deriving DecidableEq, Repr

/-- One action; users are deleted by the handler alone. -/
def WatchedLimits.step (config : List (Option LimitConfig)) (s : WatchedLimits) :
    WatchedAction → Option (WatchedLimits × Option (Bool × ℤ))
  | .call (.userListChanged _) => none
  | .call op => (s.limits.step config (s.now, op)).map fun r => ({ s with limits := r.1 }, r.2)
  | .userListChanged hasValue userList =>
      (s.limits.userListChanged hasValue userList).map fun m => ({ s with limits := m }, none)
  | .tick now => some ({ s with now := now }, none)

/-! ## Refusals -/

namespace Limit

/-- The limit answers that a try is not allowed. -/
def Refuses (l : Limit) (now : ℤ) : Prop := ∃ till l', l.allow now = some ((false, till), l')

/-- The limit after another failure, as a later question sees it. -/
def failedAt (l : Limit) (now : ℤ) : Limit :=
  { l with numFailures := l.numFailures + 1, lockAt := now }

/-- The lock that another failure starts has a length: it is for ever, or positive without an
overflow of its nanoseconds. -/
def NextLockHolds (l : Limit) : Prop :=
  let secs := { l with numFailures := l.numFailures + 1 : Limit }.lockSecs
  secs ≠ 0 ∧ (secs < 0 ∨ l.maxTries ≤ 0 ∨ 0 ≤ int64 (second * secs))

variable {l l' : Limit} {now : ℤ}

/-- Related limits refuse together. -/
theorem Refuses.congr (hrel : LimitRel l l') : l.Refuses now ↔ l'.Refuses now := by
  have hallow := hrel.allow now
  unfold Refuses
  rcases h : l.allow now with _ | p <;> rcases h' : l'.allow now with _ | p' <;>
    rw [h, h'] at hallow
  · cases hallow
  · cases hallow
  · obtain ⟨heq, -⟩ := Option.rel_some_some.mp hallow
    constructor
    · rintro ⟨till, l₁, hp⟩
      cases hp
      exact ⟨till, p'.2, congrArg some (Prod.ext heq.symm rfl)⟩
    · rintro ⟨till, l₁, hp'⟩
      cases hp'
      exact ⟨till, p.2, congrArg some (Prod.ext heq rfl)⟩

/-- A reset limit allows a try. -/
theorem answer_reset (hm : 0 < l.maxTries) : l.reset.answer.1 = true := by
  unfold answer
  rw [reset_numFailures, reset_maxTries, reset_unlockSecs]
  cases hd : l.dynamicLimit <;> simp [hm]

/-- A limit refuses where it limits, has no tries left and finds no lock that is over. -/
theorem refuses_iff : l.Refuses now ↔
    l.maxTries ≠ 0 ∧ ∃ l₁, l.refresh = some l₁ ∧ l₁.tryReset now = l₁ ∧ l₁.answer.1 = false := by
  constructor
  · rintro ⟨till, l', h⟩
    by_cases hm : l.maxTries = 0
    · rw [allow, if_pos hm] at h
      cases h
    · obtain ⟨l₁, h₁, rfl, hanswer⟩ := (allow_eq_some hm).mp h
      have hfalse : (l₁.tryReset now).answer.1 = false := congrArg Prod.fst hanswer.symm
      suffices hsame : l₁.tryReset now = l₁ from ⟨hm, l₁, h₁, hsame, hsame ▸ hfalse⟩
      by_cases hpos : 0 < l₁.maxTries
      · -- a reset limit would have tries left
        rcases tryReset_eq_or l₁ now with hr | hr
        · exact hr
        · rw [hr, answer_reset hpos] at hfalse
          cases hfalse
      · unfold tryReset
        rw [if_neg (c := _ ∧ _) fun hc => hpos hc.2, ite_self]
  · rintro ⟨hm, l₁, h₁, hr, hanswer⟩
    refine ⟨l₁.answer.2, l₁, (allow_eq_some hm).mpr ⟨l₁, h₁, hr.symm, ?_⟩⟩
    exact Prod.ext hanswer.symm rfl

/-- Asking a limit that refuses changes nothing that is seen. -/
theorem Refuses.allow (h : l.Refuses now) {r : Bool × ℤ} (ha : l.allow now = some (r, l')) :
    l'.Refuses now := by
  obtain ⟨hm, l₁, h₁, hr, -⟩ := refuses_iff.mp h
  obtain ⟨l₂, h₂, rfl, -⟩ := (allow_eq_some hm).mp ha
  obtain rfl : l₁ = l₂ := Option.some.inj (h₁.symm.trans h₂)
  obtain ⟨hn, hat, -⟩ := refresh_same h₁
  rw [hr]
  exact (Refuses.congr ⟨refresh_sameConfig h₁, hn, hat⟩).mp h

/-- A limit that refuses has no tries left. -/
theorem Refuses.maxTries_le (h : l.Refuses now) : l.maxTries ≤ l.numFailures := by
  obtain ⟨-, l₁, h₁, -, hanswer⟩ := refuses_iff.mp h
  by_contra hlt
  rw [not_le, ← (refresh_same h₁).1, ← (refresh_sameConfig h₁).2.2.1] at hlt
  rw [answer, if_pos hlt] at hanswer
  cases hanswer

/-- A dynamic limit that refuses has a list of durations. -/
theorem Refuses.durations (h : l.Refuses now) (hd : l.dynamicLimit = true) :
    l.dynamicLimitUnlockSecs ≠ [] := by
  obtain ⟨-, l₁, h₁, -⟩ := refuses_iff.mp h
  have hn := h.maxTries_le
  intro hnil
  unfold refresh getDynamicLimitTime at h₁
  dsimp only at h₁
  rw [if_pos hd, if_neg (by omega), if_pos (by rw [hnil]; simpa using by omega), hnil] at h₁
  cases h₁

/-- Without tries left, the duration cached is that of the present lock. -/
theorem refresh_of_le (hne : l.dynamicLimit = true → l.dynamicLimitUnlockSecs ≠ [])
    (hn : l.maxTries ≤ l.numFailures) : l.refresh = some (l.setUnlockSecs l.lockSecs) := by
  unfold refresh
  split_ifs with hd
  · rw [getDynamicLimitTime_eq hd (hne hd) hn]
    rfl
  · have hs : l.lockSecs = l.unlockSecs := by simp [lockSecs, hd]
    rw [hs]
    rfl

/-- What a failure leaves of a limit that refuses, up to what is not seen. -/
theorem Refuses.fail (h : l.Refuses now) : LimitRel (l.failedAt now) (l.fail now) := by
  have hn := h.maxTries_le
  obtain ⟨hm, l₁, h₁, hr, -⟩ := refuses_iff.mp h
  have hconfig : SameConfig (l.failedAt now) (l.fail now) :=
    SameConfig.trans ⟨rfl, rfl, rfl, rfl, rfl, fun _ => rfl⟩ (fail_sameConfig l now)
  cases hd : l.dynamicLimit
  · -- a static limit is what the question saw
    have hl₁ : l₁ = l := by
      rw [refresh, hd] at h₁
      exact (Option.some.inj h₁).symm
    rw [hl₁] at hr
    refine ⟨hconfig, ?_, ?_⟩ <;>
    · unfold Limit.fail
      dsimp only
      rw [if_neg hm, hr, if_pos (by omega)]
      rfl
  · obtain ⟨hfailures, hat⟩ := fail_of_dynamic hd hm now
    rw [if_pos (by omega)] at hat
    exact ⟨hconfig, hfailures, hat⟩

/-- Without tries left, only a duration of zero is no lock. -/
theorem answer_eq_false_iff (hn : l.maxTries ≤ l.numFailures) :
    l.answer.1 = false ↔ l.unlockSecs ≠ 0 := by
  unfold answer
  rw [if_neg (not_lt.mpr hn)]
  split_ifs with h0 <;> simp [h0]

/-- At the instant of a lock, only a duration that overflows lets it be taken back. -/
theorem tryReset_eq_self_iff (h0 : l.unlockSecs ≠ 0) (hat : l.lockAt = now)
    (hn : l.maxTries ≤ l.numFailures) :
    l.tryReset now = l ↔
      l.unlockSecs < 0 ∨ l.maxTries ≤ 0 ∨ 0 ≤ int64 (second * l.unlockSecs) := by
  have hne : 0 < l.maxTries → l.reset ≠ l := by
    intro hpos heq
    cases hd : l.dynamicLimit
    · have hfailures : l.reset.numFailures = 0 := by rw [reset_numFailures, hd]; rfl
      rw [heq] at hfailures
      omega
    · have hcached : l.reset.unlockSecs = 0 := by rw [reset_unlockSecs, hd]; rfl
      exact h0 (heq ▸ hcached)
  have hzero : int64 (Time.unixNano now - Time.unixNano l.lockAt) = 0 := by
    rw [hat, sub_self]
    rfl
  unfold tryReset
  dsimp only
  rw [hzero]
  split_ifs with hneg hlocked hover
  · simp [hneg]
  · refine iff_of_false (hne hlocked.2) ?_
    omega
  · simp [not_lt.mp hover]
  · simp [show l.maxTries ≤ 0 by omega]

/-- **A failure leaves a refused factor refused**, unless the lock that it starts has no length. -/
theorem refuses_fail_iff (h : l.Refuses now) : (l.fail now).Refuses now ↔ l.NextLockHolds := by
  have hn := h.maxTries_le
  obtain ⟨hm, -⟩ := refuses_iff.mp h
  have hsecs : (l.failedAt now).lockSecs =
      { l with numFailures := l.numFailures + 1 : Limit }.lockSecs := rfl
  have hrefresh := refresh_of_le (l := l.failedAt now) h.durations
    (show l.maxTries ≤ l.numFailures + 1 by omega)
  rw [← Refuses.congr h.fail, refuses_iff, hrefresh, hsecs]
  unfold NextLockHolds
  dsimp only
  generalize { l with numFailures := l.numFailures + 1 : Limit }.lockSecs = secs
  have hle : l.maxTries ≤ l.numFailures + 1 := by omega
  have hanswer : ((l.failedAt now).setUnlockSecs secs).answer.1 = false ↔ secs ≠ 0 :=
    answer_eq_false_iff hle
  simp only [Option.some.injEq, exists_eq_left', hanswer]
  refine (and_iff_right hm).trans (and_comm.trans (and_congr_right ?_))
  intro h0
  exact tryReset_eq_self_iff h0 rfl hle

/-- Forgetting everything where there is nothing to forget is not seen. -/
theorem limitRel_resetAll (hn : l.numFailures = 0) (hat : l.lockAt = Time.zero) :
    LimitRel l l.resetAll := by
  refine ⟨resetAll_sameConfig l, ?_, ?_⟩
  · rw [hn, resetAll, reset_numFailures, ite_self]
  · rw [hat, resetAll, reset_lockAt]

end Limit

/-! ## What the calls on the table leave alone -/

namespace LimitTable

variable {config : List (Option LimitConfig)} {base : UserLimits} {m m' : LimitTable}
  {k : UserKey} {t : AuthType} {now : ℤ}

/-- The factor has a limit, and the limit refuses. -/
def Refuses (m : LimitTable) (k : UserKey) (t : AuthType) (now : ℤ) : Prop :=
  ∃ l, m.limit k t = some l ∧ l.Refuses now

/-- A limit that is replaced by a related one refuses together with it. -/
theorem Refuses.of_rel (h : m.Refuses k t now)
    (hrel : Option.Rel Limit.LimitRel (m.limit k t) (m'.limit k t)) : m'.Refuses k t now := by
  obtain ⟨l, hl, hr⟩ := h
  rw [hl] at hrel
  rcases hl' : m'.limit k t with _ | l' <;> rw [hl'] at hrel
  · cases hrel
  · exact ⟨l', hl', (Limit.Refuses.congr (Option.rel_some_some.mp hrel)).mp hr⟩

/-- A limit that is still there refuses as it did. -/
theorem Refuses.of_eq (h : m.Refuses k t now) (heq : m'.limit k t = m.limit k t) :
    m'.Refuses k t now := by
  obtain ⟨l, hl, hr⟩ := h
  exact ⟨l, heq.trans hl, hr⟩

/-- A write through a pointer to another factor. -/
theorem limit_setLimit_of_ne {k' : UserKey} {t' : AuthType} (l : Limit)
    (hne : (k, t) ≠ (k', t')) : (m.setLimit k' t' l).limit k t = m.limit k t := by
  unfold limit UserLimits.get
  rw [lookup_setLimit]
  split_ifs with hk
  · subst hk
    have ht : t ≠ t' := fun ht => hne (ht ▸ rfl)
    rcases m.lookup k with _ | ul
    · rfl
    · simp only [Option.map_some, Option.bind_some]
      rw [AList.lookup_insert_ne ht]
  · rfl

/-- A reset forgets everything about one user. -/
theorem lookup_resetLimits {k' : UserKey} (h : m.resetLimits k' = some m') (k : UserKey) :
    m'.lookup k = (m.lookup k).map fun ul =>
      if k = k' then ul.mapVal fun _ l => l.map Limit.resetAll else ul := by
  unfold resetLimits at h
  by_cases hk : k = k'
  · subst hk
    simp only [if_true]
    rcases hul : m.lookup k with _ | ul <;> rw [hul] at h
    · cases h
      exact hul
    · simp only [Option.ite_none_right_eq_some, Option.some.injEq] at h
      rw [← h.2, AList.lookup_insert]
      rfl
  · simp only [if_neg hk, Option.map_id']
    rcases hul : m.lookup k' with _ | ul <;> rw [hul] at h
    · cases h
      rfl
    · simp only [Option.ite_none_right_eq_some, Option.some.injEq] at h
      rw [← h.2, AList.lookup_insert_ne hk]

/-- **A call leaves a refused factor refused**, but for its success, a reset of its user, and a
failure that starts no lock. -/
theorem Refuses.step (hbase : newUserLimits config = some base) (h : m.Refuses k t now)
    {op : TableOp} {o : Option (Bool × ℤ)} (hs : m.step config (now, op) = some (m', o))
    (hdelete : ∀ existUserList, op ≠ .userListChanged existUserList)
    (hsuccess : op ≠ .success k t) (hreset : op ≠ .resetLimits k)
    (hfail : op = .fail k t → ∀ l, m.limit k t = some l → l.NextLockHolds) :
    m'.Refuses k t now := by
  cases op with
  | initLimitsByUsername k' =>
      obtain ⟨m₁, h₁, heq⟩ := Option.map_eq_some_iff.mp hs
      cases heq
      obtain ⟨hself, hother⟩ := lookup_initLimitsByUsername hbase h₁
      refine h.of_eq ?_
      unfold limit
      by_cases hk : k = k'
      · subst hk
        obtain ⟨l, hl, -⟩ := h
        obtain ⟨ul, hul, -⟩ := limit_eq_some_iff.mp hl
        rw [hself, hul]
        rfl
      · rw [hother k hk]
  | allow k' t' =>
      obtain ⟨⟨answer, m₁⟩, hr, heq⟩ := Option.map_eq_some_iff.mp hs
      cases heq
      unfold LimitTable.allow at hr
      rcases hl' : m.limit k' t' with _ | l' <;> rw [hl'] at hr
      · cases hr
        exact h
      · obtain ⟨⟨r, l₁⟩, ha, heq⟩ := Option.map_eq_some_iff.mp hr
        cases heq
        by_cases hkt : (k, t) = (k', t')
        · cases hkt
          obtain ⟨l, hl, href⟩ := h
          obtain rfl : l' = l := Option.some.inj (hl'.symm.trans hl)
          exact ⟨l₁, by rw [limit_setLimit hl, if_pos rfl], href.allow ha⟩
        · exact h.of_eq (limit_setLimit_of_ne l₁ hkt)
  | fail k' t' =>
      cases hs
      unfold LimitTable.fail
      rcases hl' : m.limit k' t' with _ | l'
      · exact h
      · by_cases hkt : (k, t) = (k', t')
        · cases hkt
          obtain ⟨l, hl, href⟩ := h
          refine ⟨l.fail now, ?_, (Limit.refuses_fail_iff href).mpr (hfail rfl l hl)⟩
          obtain rfl : l' = l := Option.some.inj (hl'.symm.trans hl)
          exact (limit_setLimit hl t).trans (if_pos rfl)
        · exact h.of_eq (limit_setLimit_of_ne _ hkt)
  | success k' t' =>
      cases hs
      unfold LimitTable.success
      rcases hl' : m.limit k' t' with _ | l'
      · exact h
      · refine h.of_eq (limit_setLimit_of_ne _ ?_)
        rintro ⟨⟩
        exact hsuccess rfl
  | resetLimits k' =>
      obtain ⟨m₁, h₁, heq⟩ := Option.map_eq_some_iff.mp hs
      cases heq
      refine h.of_eq ?_
      have hk : k ≠ k' := fun hk => hreset (hk ▸ rfl)
      unfold limit
      rw [lookup_resetLimits h₁]
      simp only [if_neg hk, Option.map_id']
  | userListChanged existUserList => exact absurd rfl (hdelete existUserList)

end LimitTable

/-! ## The handler and the runs around it -/

namespace WatchedLimits

variable {config : List (Option LimitConfig)} {base : UserLimits} {s s' : WatchedLimits}
  {a : WatchedAction}

/-- After the handler, every user that is listed and had limits has them, with the failures and
locks they had. -/
def KeepsEntries (config : List (Option LimitConfig)) (s : WatchedLimits) (a : WatchedAction) :
    Prop :=
  ∀ hasValue userList s' o, a = .userListChanged hasValue userList →
    s.step config a = some (s', o) → ∀ k ul, s.limits.lookup k = some ul →
      (hasValue = true → k.2 ∈ listedUsers userList) →
        ∃ ul', s'.limits.lookup k = some ul' ∧
          ∀ t, (ul'.get t).map Limit.state = (ul.get t).map Limit.state

/-- A refused factor of a user that stays listed is still refused, unless time passes, the factor
succeeds or its user is reset. -/
def KeepsLocks (config : List (Option LimitConfig)) (s : WatchedLimits) (a : WatchedAction) :
    Prop :=
  ∀ k t s' o, s.limits.Refuses k t s.now → s.step config a = some (s', o) →
    (∀ userList, a = .userListChanged true userList → k.2 ∈ listedUsers userList) →
      (∀ now, a ≠ .tick now) → a ≠ .call (.success k t) → a ≠ .call (.resetLimits k) →
        s'.limits.Refuses k t s'.now

/-- No lookup of a listed user with limits fails, and there is nothing to forget under the empty
name, if that is listed; a failure of a refused factor starts a lock. -/
def LooksUp (s : WatchedLimits) : WatchedAction → Prop
  | .userListChanged true userList =>
      (∀ k ∈ s.limits, k.2 ∈ listedUsers userList → k.2 ∈ existUserList userList) ∧
        ("" ∈ listedUsers userList → ∀ t l, s.limits.limit (.Local, "") t = some l →
          l.numFailures = 0 ∧ l.lockAt = Time.zero)
  | .call (.fail k t) =>
      ∀ l, s.limits.limit k t = some l → l.Refuses s.now → l.NextLockHolds
  | _ => True

/-- A call is a step of the table. -/
theorem step_call {op : TableOp} {o : Option (Bool × ℤ)}
    (hstep : s.step config (.call op) = some (s', o)) :
    (∀ existUserList, op ≠ .userListChanged existUserList) ∧ s'.now = s.now ∧
      s.limits.step config (s.now, op) = some (s'.limits, o) := by
  cases op with
  | userListChanged existUserList => cases hstep
  | _ =>
      refine ⟨fun _ h => (nomatch h), ?_⟩
      unfold step at hstep
      dsimp only at hstep
      obtain ⟨r, hr, heq⟩ := Option.map_eq_some_iff.mp hstep
      cases heq
      exact ⟨rfl, hr⟩

/-- Those that are not deleted are still of the configuration. -/
theorem fromConfig_deleteUsers (hbase : newUserLimits config = some base) {m : LimitTable}
    (hm : m.FromConfig base) (users : List String) : (m.deleteUsers users).FromConfig base := by
  have hstep : LimitTable.step config m (0, .userListChanged users) =
      some (m.deleteUsers users, none) := rfl
  exact Limits.step_fromConfig hbase hm hstep

/-- The limits stay those of the configuration. -/
theorem step_fromConfig (hbase : newUserLimits config = some base)
    (hs : s.limits.FromConfig base) {o : Option (Bool × ℤ)}
    (hstep : s.step config a = some (s', o)) : s'.limits.FromConfig base := by
  cases a with
  | call op => exact Limits.step_fromConfig hbase hs (step_call hstep).2.2
  | userListChanged hasValue userList =>
      obtain ⟨m, hm, heq⟩ := Option.map_eq_some_iff.mp hstep
      cases heq
      unfold LimitTable.userListChanged at hm
      split_ifs at hm
      · have hreset : LimitTable.step config (s.limits.deleteUsers (existUserList userList))
            (s.now, .resetLimits (.Local, "")) = some (m, none) :=
          Option.map_eq_some_iff.mpr ⟨m, hm, rfl⟩
        exact Limits.step_fromConfig hbase (fromConfig_deleteUsers hbase hs _) hreset
      · cases hm
        exact hs
  | tick now =>
      cases hstep
      exact hs

/-- On the limits of the configuration, a reset does not panic. -/
theorem resetLimits_isSome (hbase : newUserLimits config = some base) {m : LimitTable}
    (hm : m.FromConfig base) (k : UserKey) : (m.resetLimits k).isSome := by
  unfold LimitTable.resetLimits
  rcases hk : m.lookup k with _ | ul
  · rfl
  · have hwf := (newUserLimits_wellFormed hbase).of_rel (hm k ul hk)
    simp only
    rw [if_pos (hwf.visited_isSome ul.ranges_entries)]
    rfl

/-- What the handler does to a user that was looked up. -/
theorem lookup_userListChanged {m m' : LimitTable} {userList : List ListedUser}
    (h : m.userListChanged true userList = some m') (k : UserKey) :
    m'.lookup k = if k.2 ∈ existUserList userList then
      (m.lookup k).map fun ul =>
        if k = (.Local, "") then ul.mapVal fun _ l => l.map Limit.resetAll else ul
      else none := by
  unfold LimitTable.userListChanged at h
  rw [if_pos rfl] at h
  rw [LimitTable.lookup_resetLimits h, LimitTable.lookup_deleteUsers]
  by_cases hex : k.2 ∈ existUserList userList
  · rw [if_pos hex, if_pos hex]
  · rw [if_neg hex, if_neg hex]
    rfl

/-- A call keeps the locks exactly when a failure of a refused factor starts one. -/
theorem keepsLocks_call_iff (hbase : newUserLimits config = some base) (op : TableOp) :
    KeepsLocks config s (.call op) ↔ s.LooksUp (.call op) := by
  constructor
  · intro hkeeps
    cases op with
    | fail k t =>
        intro l hl href
        have hfail : (s.limits.fail k t s.now).getD s.limits =
            s.limits.setLimit k t (l.fail s.now) := by
          unfold LimitTable.fail
          rw [hl]
          rfl
        obtain ⟨l', hl', href'⟩ := hkeeps k t _ _ ⟨l, hl, href⟩ rfl (fun _ h => (nomatch h))
          (fun _ h => (nomatch h)) (fun h => (nomatch h)) (fun h => (nomatch h))
        dsimp only at hl' href'
        rw [hfail, LimitTable.limit_setLimit hl, if_pos rfl, Option.some.injEq] at hl'
        subst hl'
        exact (Limit.refuses_fail_iff href).mp href'
    | _ => trivial
  · intro hlooks k t s' o href hstep _ _ hsuccess hreset
    obtain ⟨hdelete, hnow, hstep⟩ := step_call hstep
    rw [hnow]
    refine href.step hbase hstep hdelete (fun h => hsuccess (h ▸ rfl))
      (fun h => hreset (h ▸ rfl)) ?_
    rintro rfl l hl
    obtain ⟨l', hl', href⟩ := href
    obtain rfl : l' = l := Option.some.inj (hl'.symm.trans hl)
    exact hlooks l' hl href

/-- The handler keeps the entries of listed users exactly when it looks them up. -/
theorem keepsEntries_iff (hbase : newUserLimits config = some base)
    (hs : s.limits.FromConfig base) (userList : List ListedUser) :
    KeepsEntries config s (.userListChanged true userList) ↔
      s.LooksUp (.userListChanged true userList) := by
  constructor
  · intro hkeeps
    obtain ⟨m, hm⟩ : ∃ m, s.limits.userListChanged true userList = some m :=
      Option.isSome_iff_exists.mp
        (resetLimits_isSome hbase (fromConfig_deleteUsers hbase hs _) (.Local, ""))
    have hkept : ∀ k ul, s.limits.lookup k = some ul → k.2 ∈ listedUsers userList →
        ∃ ul', m.lookup k = some ul' ∧
          ∀ t, (ul'.get t).map Limit.state = (ul.get t).map Limit.state :=
      fun k ul hul hlisted =>
        hkeeps true userList ⟨m, s.now⟩ none rfl (Option.map_eq_some_iff.mpr ⟨m, hm, rfl⟩) k ul hul
          fun _ => hlisted
    have hlooks : ∀ k ∈ s.limits, k.2 ∈ listedUsers userList → k.2 ∈ existUserList userList := by
      intro k hk hlisted
      obtain ⟨ul, hul⟩ := Option.isSome_iff_exists.mp (AList.lookup_isSome.mpr hk)
      obtain ⟨ul', hul', -⟩ := hkept k ul hul hlisted
      by_contra hex
      rw [lookup_userListChanged hm, if_neg hex] at hul'
      cases hul'
    refine ⟨hlooks, fun hlisted t l hl => ?_⟩
    · obtain ⟨ul, hul, hlt⟩ := LimitTable.limit_eq_some_iff.mp hl
      have hex := hlooks (.Local, "") (AList.lookup_isSome.mp (by rw [hul]; rfl)) hlisted
      obtain ⟨ul', hul', hstate⟩ := hkept _ ul hul hlisted
      rw [lookup_userListChanged hm, if_pos hex, hul, Option.map_some, if_pos rfl,
        Option.some.injEq] at hul'
      have hreset := hstate t
      rw [← hul', UserLimits.get, UserLimits.get, GoMap.lookup_mapVal, hlt] at hreset
      simp only [Option.map_some, Option.join_some, Option.some.injEq, Limit.state,
        LimitState.mk.injEq] at hreset
      obtain ⟨-, hn, hat⟩ := hreset
      rw [Limit.resetAll, Limit.reset_numFailures, ite_self] at hn
      rw [Limit.resetAll, Limit.reset_lockAt] at hat
      exact ⟨hn.symm, hat.symm⟩
  · rintro ⟨hlooks, hempty⟩ hasValue userList' s' o heq hstep k ul hul hlisted
    cases heq
    obtain ⟨m, hm, heq⟩ := Option.map_eq_some_iff.mp hstep
    cases heq
    have hlisted := hlisted rfl
    have hex := hlooks k (AList.lookup_isSome.mp (by rw [hul]; rfl)) hlisted
    have hlookup := lookup_userListChanged hm k
    rw [if_pos hex, hul, Option.map_some] at hlookup
    refine ⟨_, hlookup, fun t => ?_⟩
    · split_ifs with hk
      · subst hk
        rw [UserLimits.get, UserLimits.get, GoMap.lookup_mapVal]
        rcases hlt : ul.lookup t with _ | _ | l
        · rfl
        · rfl
        · obtain ⟨hn, hat⟩ := hempty hlisted t l (LimitTable.limit_eq_some_iff.mpr ⟨ul, hul, hlt⟩)
          have hrel := Limit.limitRel_resetAll hn hat
          simp [Limit.state, hrel.failures, hrel.lockAt, hrel.config.1]
      · rfl

/-- A handler that looks up the listed users keeps their locks. -/
theorem LooksUp.keepsLocks {userList : List ListedUser}
    (h : s.LooksUp (.userListChanged true userList)) :
    KeepsLocks config s (.userListChanged true userList) := by
  obtain ⟨hlooks, hempty⟩ := h
  intro k t s' o href hstep hlisted _ _ _
  have hlisted := hlisted userList rfl
  obtain ⟨m, hm, heq⟩ := Option.map_eq_some_iff.mp hstep
  cases heq
  have hl := href
  obtain ⟨l, hl, -⟩ := hl
  obtain ⟨ul, hul, hlt⟩ := LimitTable.limit_eq_some_iff.mp hl
  have hex := hlooks k (AList.lookup_isSome.mp (by rw [hul]; rfl)) hlisted
  refine href.of_rel ?_
  have hlookup := lookup_userListChanged hm k
  rw [if_pos hex, hul, Option.map_some] at hlookup
  rw [hl, LimitTable.limit, hlookup, Option.bind_some]
  split_ifs with hk
  · subst hk
    obtain ⟨hn, hat⟩ := hempty hlisted t l hl
    rw [UserLimits.get, GoMap.lookup_mapVal, hlt]
    exact .some (Limit.limitRel_resetAll hn hat)
  · rw [UserLimits.get, hlt]
    exact .some (.refl l)

/-- **One action keeps the entries and the locks of listed users exactly when it looks them up.** -/
theorem keeps_iff (hbase : newUserLimits config = some base) (hs : s.limits.FromConfig base)
    (a : WatchedAction) :
    KeepsEntries config s a ∧ KeepsLocks config s a ↔ s.LooksUp a := by
  cases a with
  | call op =>
      rw [keepsLocks_call_iff hbase op]
      exact and_iff_right fun _ _ _ _ h => (nomatch h)
  | userListChanged hasValue userList =>
      cases hasValue with
      | false =>
          -- without a list the handler returns
          refine iff_of_true ⟨?_, ?_⟩ trivial
          · rintro _ _ s' o ⟨⟩ hstep k ul hul -
            cases hstep
            exact ⟨ul, hul, fun _ => rfl⟩
          · intro k t s' o href hstep _ _ _ _
            cases hstep
            exact href
      | true =>
          rw [keepsEntries_iff hbase hs]
          exact and_iff_left_of_imp LooksUp.keepsLocks
  | tick now =>
      refine iff_of_true ⟨fun _ _ _ _ h => (nomatch h), ?_⟩ trivial
      intro _ _ _ _ _ _ _ htick
      exact absurd rfl (htick now)

/-- **A changed list and the locks of listed users.** In the runs of all the calls on the limits,
every new list leaves the entries of listed users as they were, and what is refused stays refused
but for time, successes and resets, exactly when all users that matter are looked up. -/
theorem listed_keep_locks_iff (hbase : newUserLimits config = some base)
    (hs : s.limits.FromConfig base) (acts : List WatchedAction) :
    Along (step config) (fun s a => KeepsEntries config s a ∧ KeepsLocks config s a) s acts ↔
      Along (step config) LooksUp s acts :=
  along_iff (fun _ _ _ _ h hstep => step_fromConfig hbase h hstep)
    (fun _ a h => keeps_iff hbase h a) hs acts

/-- A password that one failure locks for a minute. -/
def lockingConfig : List (Option LimitConfig) := [some ⟨.password, 60, 1, false, []⟩]

/-- A user fails once. -/
def failOnce : List WatchedAction :=
  [.call (.initLimitsByUsername (.Local, "user")), .call (.fail (.Local, "user") .password)]

/-- The lock of a user who is looked up stays. -/
theorem listed_keep_locks_iff_looked_up :
    Along (step lockingConfig)
      (fun s a => KeepsEntries lockingConfig s a ∧ KeepsLocks lockingConfig s a) ⟨∅, 0⟩
        (failOnce ++ [.userListChanged true [⟨"user", none, none⟩]]) := by
  obtain ⟨base, hbase⟩ : ∃ base, newUserLimits lockingConfig = some base := ⟨_, rfl⟩
  refine (listed_keep_locks_iff hbase (fun _ _ h => ?_) _).mpr ?_
  · cases h
  refine (along_cons_of_eq rfl).mpr ⟨trivial, (along_cons_of_eq rfl).mpr ⟨?_, ?_⟩⟩
  · intro l hl _
    cases hl
    exact ⟨by decide, .inr (.inr (by decide))⟩
  · refine (along_cons_of_eq rfl).mpr ⟨⟨fun _ _ h => h, ?_⟩, trivial⟩
    intro h
    exact absurd h (by decide)

/-- A lookup that fails takes the lock of a listed user away. -/
theorem failed_lookup_unlocks :
    ¬ ∀ acts, Along (step lockingConfig)
      (fun s a => KeepsEntries lockingConfig s a ∧ KeepsLocks lockingConfig s a) ⟨∅, 0⟩ acts := by
  intro h
  obtain ⟨hentries, -⟩ := (h (failOnce ++
    [.userListChanged true [⟨"user", none, some "timeout"⟩]])).of_run rfl
  obtain ⟨ul, hul, -⟩ := hentries true _ _ _ rfl rfl (.Local, "user") _ rfl
    fun _ => List.mem_singleton.mpr rfl
  cases hul

end WatchedLimits

end LingmoAuthenticate.Limits
