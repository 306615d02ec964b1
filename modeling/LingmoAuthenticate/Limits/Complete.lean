import LingmoAuthenticate.Limits.Restart

/-!
# A limit for every type

`initLimitsByUsername` makes the limits of a user in three loops: a nil pointer for each type of
`AllAuthTypes`, the configured limits (of types outside of it, too), and a default for each pointer
that is still nil. The functions that range over the limits follow the pointers without a check.

* `LimitTable.getLimits` is `Manager.getLimits`, and `LimitsCall` all the calls on the table; what
  `loadLimitStates` does is there as a whole, and in the parts that it locks the mutex for.
* `calls_fromConfig`: no call takes a user's limits away from the configuration.
* `tables_complete`: in every table that is reached, each user has a limit of every type, filed
  under its own type and flag, and so no call meets a nil pointer.
-/

namespace LingmoAuthenticate.Limits

open Lib AuthCommon

/-! ## The limits of a user, exported -/

/-- What is told of a limit: its configuration, the failures, whether it is locked and until when,
an instant in nanoseconds. Source: `limit.go`, `LimitForExport`. -/
structure LimitForExport where
  type : AuthType
  flag : ℕ
  unlockSecs : ℤ
  maxTries : ℤ
  numFailures : ℤ
  locked : Bool
  unlockTime : ℤ
  deriving DecidableEq, Repr

/-- A limit after it has been asked, with the answer. Source: `manager.go`, `le` in
`Manager.getLimits`. -/
def Limit.forExport (l : Limit) (answer : Bool × ℤ) : LimitForExport where
  type := l.type0
  flag := l.flag
  unlockSecs := l.unlockSecs
  maxTries := l.maxTries
  numFailures := l.numFailures
  locked := !answer.1
  unlockTime := answer.2

/-- One round of the loop: the limit is asked, and written through its pointer; a nil pointer
panics. Source: `manager.go`, `Manager.getLimits`. -/
def exportRound (now : ℤ) (acc : UserLimits × List LimitForExport)
    (e : Σ _ : AuthType, Option Limit) : Option (UserLimits × List LimitForExport) :=
  e.2.bind fun l => (l.allow now).map fun r =>
    (acc.1.insert e.1 (some r.2), acc.2 ++ [r.2.forExport r.1])

/-- Source: `manager.go`, `Manager.getLimits`. -/
def LimitTable.getLimits (order : StatesOrder) (m : LimitTable) (k : UserKey) (now : ℤ) :
    Option (List LimitForExport × LimitTable) :=
  match m.lookup k with
  | none => some ([], m)
  | some ul =>
      ((order.limits k ul).foldlM (exportRound now) (ul, [])).map fun r => (r.2, m.insert k r.1)

/-! ## All the calls -/

/-- A call on the limits: one that changes the table, an export of a user's limits, a snapshot, or a
reading of snapshots; `loadStates` is the inner loop of `loadLimitStates`, under the mutex. -/
inductive LimitsCall where
  | table (op : TableOp)
  | getLimits (k : UserKey)
  | getLimitStates
  | loadStates (k : UserKey) (states : List LimitState)
  | loadLimitStates (order : List (Σ _ : UserKey, List LimitState))

/-- What a call returns. -/
inductive LimitsAnswer where
  | done
  | allowed (answer : Option (Bool × ℤ))
  | limits (result : List LimitForExport)
  | states (states : LimitStates)

/-- One call at an instant; `none` is a panic. -/
def LimitTable.call (config : List (Option LimitConfig)) (order : StatesOrder) (m : LimitTable) :
    ℤ × LimitsCall → Option (LimitTable × LimitsAnswer)
  | (now, .table op) => (m.step config (now, op)).map fun r => (r.1, .allowed r.2)
  | (now, .getLimits k) => (m.getLimits order k now).map fun r => (r.2, .limits r.1)
  | (_, .getLimitStates) => (m.getLimitStates order).map fun states => (m, .states states)
  | (_, .loadStates k states) => some (states.foldl (LimitTable.loadState k) m, .done)
  | (_, .loadLimitStates states) => (m.loadLimitStates config states).map fun m => (m, .done)

section calls

variable {config : List (Option LimitConfig)} {order : StatesOrder} {base ul ul' : UserLimits}
  {m m' : LimitTable} {k : UserKey} {t : AuthType} {R : Limit → Limit → Prop}

/-! ## No call takes the limits away from the configuration -/

/-- Asking each limit, of a relation that questions keep. -/
theorem exportRounds_rel (hR : Limit.Kept R) {es : List (Σ _ : AuthType, Option Limit)} {now : ℤ}
    {acc : UserLimits × List LimitForExport} {r : UserLimits × List LimitForExport}
    (hes : ∀ e ∈ es, Option.Rel (Option.Rel R) (base.lookup e.1) (some e.2))
    (hacc : base.Rel R acc.1) (h : es.foldlM (exportRound now) acc = some r) : base.Rel R r.1 := by
  induction es generalizing acc with
  | nil =>
      cases h
      exact hacc
  | cons e es ih =>
      obtain ⟨he, hes⟩ := List.forall_mem_cons.mp hes
      rw [List.foldlM_cons] at h
      obtain ⟨acc', hround, h⟩ := Option.bind_eq_some_iff.mp h
      obtain ⟨l, hl, hround⟩ := Option.bind_eq_some_iff.mp hround
      obtain ⟨⟨answer, l'⟩, hallow, rfl⟩ := Option.map_eq_some_iff.mp hround
      refine ih hes ?_ h
      rw [hl] at he
      rcases hb : base.lookup e.1 with _ | _ | l₀ <;> rw [hb] at he
      · cases he
      · cases Option.rel_some_some.mp he
      · have hl₀ := Option.rel_some_some.mp (Option.rel_some_some.mp he)
        apply hacc.insert_right
        · intro o ho
          rw [hb, Option.some.injEq] at ho
          exact ⟨l₀, ho.symm, hR.allow l₀ l now answer l' hl₀ hallow⟩
        · rw [hb]
          rfl

/-- `getLimits` keeps what questions keep. -/
theorem LimitTable.From.getLimits (hR : Limit.Kept R) (h : m.From R base) {now : ℤ}
    {r : List LimitForExport × LimitTable} (hr : m.getLimits order k now = some r) :
    r.2.From R base := by
  unfold LimitTable.getLimits at hr
  rcases hk : m.lookup k with _ | ul <;> rw [hk] at hr
  · cases hr
    exact h
  · obtain ⟨r', hr', rfl⟩ := Option.map_eq_some_iff.mp hr
    intro k' ul' hul'
    by_cases hkk : k' = k
    · rw [hkk, AList.lookup_insert, Option.some.injEq] at hul'
      subst hul'
      refine exportRounds_rel hR ?_ (h k ul hk) hr'
      intro e he
      have hrel := h k ul hk e.1
      rw [(order.limits_ranges k ul).mem_iff.mp he] at hrel
      exact hrel
    · rw [AList.lookup_insert_ne hkk] at hul'
      exact h k' ul' hul'

/-- Loading states into the limits of a user, of a relation that this keeps. -/
theorem LimitTable.From.loadStates (h : m.From R base) {states : List LimitState}
    (hload : ∀ s ∈ states, ∀ l₀ l, R l₀ l → R l₀ (l.load s)) :
    LimitTable.From R base (states.foldl (LimitTable.loadState k) m) := by
  intro k' ul hul
  rw [lookup_loadUser] at hul
  split_ifs at hul with hk
  · obtain ⟨ul₀, h₀, rfl⟩ := Option.map_eq_some_iff.mp hul
    exact (h k ul₀ h₀).loadAll hload
  · exact h k' ul hul

/-- Making the limits of a user. -/
theorem LimitTable.From.init (hR : Limit.Kept R) (hbase : newUserLimits config = some base)
    (hrefl : base.Rel R base) (h : m.From R base)
    (hm : m.initLimitsByUsername config k = some m') : m'.From R base :=
  @step_from _ _ _ _ _ hR hbase hrefl h (0, .initLimitsByUsername k) none
    (fun _ _ _ _ hop => by cases hop) (Option.map_eq_some_iff.mpr ⟨m', hm, rfl⟩)

/-- The whole of `loadLimitStates`. -/
theorem LimitTable.From.loadLimitStates (hR : Limit.Kept R)
    (hbase : newUserLimits config = some base) (hrefl : base.Rel R base)
    {states : List (Σ _ : UserKey, List LimitState)}
    (hload : ∀ e ∈ states, ∀ s ∈ e.2, ∀ l₀ l, R l₀ l → R l₀ (l.load s)) (h : m.From R base)
    (hm : m.loadLimitStates config states = some m') : m'.From R base := by
  induction states generalizing m with
  | nil =>
      cases hm
      exact h
  | cons e states ih =>
      obtain ⟨he, hstates⟩ := List.forall_mem_cons.mp hload
      unfold LimitTable.loadLimitStates at hm
      rw [List.foldlM_cons] at hm
      obtain ⟨m₂, hround, hm⟩ := Option.bind_eq_some_iff.mp hm
      obtain ⟨m₁, hinit, rfl⟩ := Option.map_eq_some_iff.mp hround
      exact ih hstates ((LimitTable.From.init hR hbase hrefl h hinit).loadStates he) hm

/-- The failure or the states of a call keep the relation. -/
def CallKeeps (R : Limit → Limit → Prop) (m : LimitTable) : ℤ × LimitsCall → Prop
  | (now, .table (.fail k t)) => ∀ l l₀, m.limit k t = some l → R l₀ l → R l₀ (l.fail now)
  | (_, .loadStates _ states) => ∀ s ∈ states, ∀ l₀ l, R l₀ l → R l₀ (l.load s)
  | (_, .loadLimitStates states) => ∀ e ∈ states, ∀ s ∈ e.2, ∀ l₀ l, R l₀ l → R l₀ (l.load s)
  | _ => True

/-- **One call.** -/
theorem call_from (hR : Limit.Kept R) (hbase : newUserLimits config = some base)
    (hrefl : base.Rel R base) (h : m.From R base) {c : ℤ × LimitsCall} {answer : LimitsAnswer}
    (hkeeps : CallKeeps R m c) (hc : m.call config order c = some (m', answer)) :
    m'.From R base := by
  obtain ⟨now, c⟩ := c
  cases c with
  | table op =>
      obtain ⟨r, hr, heq⟩ := Option.map_eq_some_iff.mp hc
      cases heq
      refine step_from hR hbase hrefl h ?_ hr
      rintro k t l l₀ rfl hl
      exact hkeeps l l₀ hl
  | getLimits k =>
      obtain ⟨r, hr, heq⟩ := Option.map_eq_some_iff.mp hc
      cases heq
      exact h.getLimits hR hr
  | getLimitStates =>
      obtain ⟨states, -, heq⟩ := Option.map_eq_some_iff.mp hc
      cases heq
      exact h
  | loadStates k states =>
      cases hc
      exact h.loadStates hkeeps
  | loadLimitStates states =>
      obtain ⟨m₁, hm₁, heq⟩ := Option.map_eq_some_iff.mp hc
      cases heq
      exact h.loadLimitStates hR hbase hrefl hkeeps hm₁

/-- Failures and loaded states leave the configuration. -/
theorem callKeeps_sameConfig (m : LimitTable) (c : ℤ × LimitsCall) :
    CallKeeps Limit.SameConfig m c := by
  unfold CallKeeps
  split
  · exact fun l l₀ _ h₀ => h₀.trans (Limit.fail_sameConfig l _)
  · exact fun _ _ _ _ h₀ => h₀
  · exact fun _ _ _ _ _ _ h₀ => h₀
  · trivial

/-- No call takes the limits away from the configuration. -/
theorem call_fromConfig (hbase : newUserLimits config = some base) (h : m.FromConfig base)
    {c : ℤ × LimitsCall} {answer : LimitsAnswer}
    (hc : m.call config order c = some (m', answer)) : m'.FromConfig base :=
  call_from Limit.kept_sameConfig hbase (.refl .refl base) h (callKeeps_sameConfig m c) hc

/-- **A run of calls.** -/
theorem calls_fromConfig (hbase : newUserLimits config = some base) (h : m.FromConfig base)
    {calls : List (ℤ × LimitsCall)} {answers : List LimitsAnswer}
    (hr : run (LimitTable.call config order) m calls = some (m', answers)) : m'.FromConfig base :=
  run_invariant_of_step (fun _ _ _ _ h hs => call_fromConfig hbase h hs) h hr

/-- A table that comes from a configuration is complete. -/
theorem LimitTable.FromConfig.wellFormed (hbase : newUserLimits config = some base)
    (h : m.FromConfig base) : m.WellFormed :=
  fun k ul hul => (newUserLimits_wellFormed hbase).of_rel (h k ul hul)

/-- The table without users. -/
theorem fromConfig_empty : LimitTable.FromConfig base ∅ := by
  intro k ul hul
  rw [AList.lookup_empty] at hul
  cases hul

/-! ## What completeness is good for -/

/-- A user of a complete table has a limit of every type. -/
theorem LimitTable.WellFormed.limit_isSome (h : m.WellFormed) (hk : (m.lookup k).isSome)
    (ht : t ∈ allAuthTypes) : ∃ l, m.limit k t = some l ∧ l.type0 = t := by
  obtain ⟨ul, hul⟩ := Option.isSome_iff_exists.mp hk
  obtain ⟨o, ho⟩ := Option.isSome_iff_exists.mp ((h k ul hul).complete t ht)
  obtain ⟨l, rfl, htype, -⟩ := (h k ul hul).keyed t o ho
  exact ⟨l, LimitTable.limit_eq_some_iff.mpr ⟨ul, hul, ho⟩, htype⟩

/-- `allowTx` answers what the limit says. -/
theorem allowTx_of_limit {l : Limit} (hl : m.limit k t = some l) (now : ℤ) :
    (m.allowTx k t now).map Prod.fst = (l.allow now).map fun r => r.1.1 := by
  have hallow : m.allow k t now = (l.allow now).map fun r => (some r.1, m.setLimit k t r.2) := by
    unfold LimitTable.allow
    rw [hl]
  rw [LimitTable.allowTx, hallow, Option.map_map, Option.map_map]
  rfl

/-- The limits of a user of a complete table can be reset. -/
theorem LimitTable.WellFormed.resetLimits_isSome (h : m.WellFormed) (k : UserKey) :
    (m.resetLimits k).isSome := by
  unfold LimitTable.resetLimits
  rcases hk : m.lookup k with _ | ul
  · rfl
  · have hall : ∀ e ∈ ul.entries, e.2.isSome :=
      (h k ul hk).visited_isSome ul.ranges_entries
    simp only [if_pos hall, Option.isSome_some]

/-- A user that is there keeps their limits. -/
theorem initLimitsByUsername_of_isSome (hk : (m.lookup k).isSome) :
    m.initLimitsByUsername config k = some m := if_pos hk

/-- **A limit for every type.** In every table that calls lead to, over a configuration without null
elements and over any decoded states, every user has a limit of every type of `AllAuthTypes`, each
limit is filed under its own type, whose flag it has, and that flag is not zero. A user that is
there is not made again; `allowTx` says what their limit says; and `resetLimits` and
`getLimitStates` meet no nil pointer. -/
theorem tables_complete {calls : List (ℤ × LimitsCall)} {answers : List LimitsAnswer}
    (hconfig : none ∉ config)
    (hr : run (LimitTable.call config order) ∅ calls = some (m, answers)) :
    (∀ k ul, m.lookup k = some ul →
      (∀ t ∈ allAuthTypes, ∃ l, ul.lookup t = some (some l)) ∧
      (∀ t o, ul.lookup t = some o →
        ∃ l, o = some l ∧ l.type0 = t ∧ l.flag = authTypeToFlag t ∧ authTypeToFlag t ≠ 0)) ∧
    (∀ k, (m.initLimitsByUsername config k).isSome ∧
      ((m.lookup k).isSome → m.initLimitsByUsername config k = some m)) ∧
    (∀ k, (m.lookup k).isSome → ∀ t ∈ allAuthTypes, ∃ l, m.limit k t = some l ∧
      ∀ now, (m.allowTx k t now).map Prod.fst = (l.allow now).map fun r => r.1.1) ∧
    (∀ k, (m.resetLimits k).isSome) ∧ ∀ order, (m.getLimitStates order).isSome := by
  obtain ⟨base, hbase⟩ := Option.isSome_iff_exists.mp (newUserLimits_isSome hconfig)
  have hwf : m.WellFormed := (calls_fromConfig hbase fromConfig_empty hr).wellFormed hbase
  have hstates : ∀ order, (m.getLimitStates order).isSome := getLimitStates_isSome hwf
  refine ⟨?_, ?_, ?_, fun k => hwf.resetLimits_isSome k, hstates⟩
  · intro k ul hul
    refine ⟨?_, (hwf k ul hul).keyed⟩
    intro t ht
    obtain ⟨o, ho⟩ := Option.isSome_iff_exists.mp ((hwf k ul hul).complete t ht)
    obtain ⟨l, rfl, -⟩ := (hwf k ul hul).keyed t o ho
    exact ⟨l, ho⟩
  · intro k
    refine ⟨?_, initLimitsByUsername_of_isSome⟩
    by_cases hk : (m.lookup k).isSome
    · rw [initLimitsByUsername_of_isSome hk]
      rfl
    · rw [LimitTable.initLimitsByUsername, if_neg hk, hbase]
      rfl
  · intro k hk t ht
    obtain ⟨l, hl, -⟩ := hwf.limit_isSome hk ht
    exact ⟨l, hl, allowTx_of_limit hl⟩

/-- The snapshot after the limits of a user have been made, of a password failed once, and loaded
with states of a type that does not exist. -/
def failAndLoad : List (ℤ × LimitsCall) :=
  [(0, .table (.initLimitsByUsername (.Local, "uos"))),
    (0, .table (.fail (.Local, "uos") .password)),
    (0, .loadStates (.Local, "uos") [⟨.other "voice", 3, 0⟩])]

/-- The run of these calls over an empty configuration. -/
theorem tables_complete_fail_and_load :
    ∃ m answers, run (LimitTable.call [] StatesOrder.listed) ∅ failAndLoad = some (m, answers) ∧
      (∀ k, (m.resetLimits k).isSome) ∧ ∀ order, (m.getLimitStates order).isSome := by
  obtain ⟨⟨m, answers⟩, hr⟩ : ∃ r, run (LimitTable.call [] StatesOrder.listed) ∅ failAndLoad =
      some r := ⟨_, rfl⟩
  have h := tables_complete (by simp) hr
  exact ⟨m, answers, hr, h.2.2.2⟩

end calls

end LingmoAuthenticate.Limits
