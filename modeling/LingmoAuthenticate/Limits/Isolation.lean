import LingmoAuthenticate.Limits.Message

/-!
# The limits of a user do not depend on those of others

One mutex and one table serve all users and factors. Seen from one of them, the table is a single
entry, which only the calls that name it, or that range over the user, can tell or change.

* `LimitTable.entry` is the entry, and `Entry.step` what a call does to it; `LimitsCall.onEntry` is
  the call as the entry sees it, if it does.
* `call_onEntry`: one call on the table, seen through an entry.
* `limits_isolated`: calls that come to the same for an entry leave it the same, and answer the same
  about it, whatever else was called in between.
-/

namespace LingmoAuthenticate.Limits

open Lib AuthCommon

/-! ## One entry -/

/-- The entry of a user for a type: `none` without the user, and an inner `none` without a limit of
the type. -/
def LimitTable.entry (m : LimitTable) (k : UserKey) (t : AuthType) : Option (Option Limit) :=
  (m.lookup k).map fun ul => ul.get t

/-- A call as an entry sees it. `load` is `loadStates`, and `restore` the rounds of `loadLimitStates`
for the user. -/
inductive EntryOp where
  | create
  | allow
  | fail
  | success
  | resetAll
  | delete
  | export
  | load (states : List LimitState)
  | restore (rounds : List (List LimitState))
  deriving DecidableEq

/-- What a call answers about an entry. -/
inductive EntryAnswer where
  | done
  | allowed (answer : Option (Bool × ℤ))
  | export (result : Option LimitForExport)
  deriving DecidableEq

namespace Entry

/-- A new user has the limit of the configuration. -/
def create (config : List (Option LimitConfig)) (t : AuthType) (e : Option (Option Limit)) :
    Option (Option (Option Limit)) :=
  match e with
  | some o => some (some o)
  | none => (newUserLimits config).map fun ul => some (ul.get t)

/-- A write to the limit, where there is one. -/
def update (f : Limit → Limit) (e : Option (Option Limit)) : Option (Option Limit) :=
  e.map (Option.map f)

/-- The states of the type of the entry, one after the other. -/
def load (t : AuthType) (states : List LimitState) (e : Option (Option Limit)) :
    Option (Option Limit) :=
  update (fun l => (states.filter fun s => s.type = t).foldl Limit.load l) e

/-- A question; an entry without a limit is not asked. -/
def ask (now : ℤ) (e : Option (Option Limit)) :
    Option (Option (Option Limit) × Option ((Bool × ℤ) × Limit)) :=
  match e.join with
  | none => some (e, none)
  | some l => (l.allow now).map fun r => (some (some r.2), some r)

/-- What a call does to an entry; `none` is a panic. -/
def step (config : List (Option LimitConfig)) (t : AuthType) (e : Option (Option Limit)) :
    ℤ × EntryOp → Option (Option (Option Limit) × EntryAnswer)
  | (_, .create) => (create config t e).map fun e => (e, .allowed none)
  | (now, .allow) => (ask now e).map fun r => (r.1, .allowed (r.2.map Prod.fst))
  | (now, .fail) => some (update (fun l => l.fail now) e, .allowed none)
  | (_, .success) => some (update Limit.reset e, .allowed none)
  | (_, .resetAll) => some (update Limit.resetAll e, .allowed none)
  | (_, .delete) => some (none, .allowed none)
  | (now, .export) =>
      (ask now e).map fun r => (r.1, .export (r.2.map fun q => q.2.forExport q.1))
  | (_, .load states) => some (load t states e, .done)
  | (_, .restore rounds) =>
      (rounds.foldlM (fun e states => (create config t e).map (load t states)) e).map
        fun e => (e, .done)

end Entry

/-- The call as the entry sees it. -/
def TableOp.onEntry (k : UserKey) (t : AuthType) : TableOp → Option EntryOp
  | .initLimitsByUsername k' => if k' = k then some .create else none
  | .allow k' t' => if k' = k ∧ t' = t then some .allow else none
  | .fail k' t' => if k' = k ∧ t' = t then some .fail else none
  | .success k' t' => if k' = k ∧ t' = t then some .success else none
  | .resetLimits k' => if k' = k then some .resetAll else none
  | .userListChanged existUserList => if k.2 ∈ existUserList then none else some .delete

/-- The call as the entry sees it. A snapshot changes nothing. -/
def LimitsCall.onEntry (k : UserKey) (t : AuthType) : LimitsCall → Option EntryOp
  | .table op => op.onEntry k t
  | .getLimits k' => if k' = k then some .export else none
  | .getLimitStates => none
  | .loadStates k' states => if k' = k then some (.load states) else none
  | .loadLimitStates order =>
      some (.restore ((order.filter fun e => e.1 = k).map Sigma.snd))

/-- The call with its time, as the entry sees it. -/
def concerning (k : UserKey) (t : AuthType) (c : ℤ × LimitsCall) : Option (ℤ × EntryOp) :=
  (c.2.onEntry k t).map fun op => (c.1, op)

/-- What an answer says about the type. -/
def LimitsAnswer.about (t : AuthType) : LimitsAnswer → EntryAnswer
  | .allowed answer => .allowed answer
  | .limits result => .export (result.find? fun le => le.type = t)
  | _ => .done

/-! ## The calls, seen through an entry -/

section entries

variable {config : List (Option LimitConfig)} {order : StatesOrder} {base ul : UserLimits}
  {m m' : LimitTable} {k k' : UserKey} {t t' : AuthType} {l l' : Limit} {now : ℤ}

theorem LimitTable.limit_eq_join : m.limit k t = (m.entry k t).join := by
  unfold limit entry
  rcases m.lookup k with _ | ul <;> rfl

/-- An entry with a limit is the entry of a user. -/
theorem LimitTable.entry_of_limit (hl : m.limit k t = some l) : m.entry k t = some (some l) := by
  rw [limit_eq_join] at hl
  rcases he : m.entry k t with _ | o <;> rw [he] at hl
  · cases hl
  · exact congrArg some hl

/-- A write through a pointer changes one entry. -/
theorem LimitTable.entry_setLimit (hl : m.limit k' t' = some l) :
    (m.setLimit k' t' l').entry k t =
      if k' = k ∧ t' = t then some (some l') else m.entry k t := by
  obtain ⟨ul, hul, -⟩ := limit_eq_some_iff.mp hl
  unfold entry
  rw [lookup_setLimit]
  by_cases hk : k = k'
  · subst hk
    rw [if_pos rfl, hul]
    simp only [Option.map_some, UserLimits.get, true_and]
    split_ifs with ht
    · rw [ht, AList.lookup_insert]
      rfl
    · rw [AList.lookup_insert_ne (Ne.symm ht)]
  · rw [if_neg hk, if_neg fun h => hk h.1.symm]

/-- A write to a limit, where there is one, changes one entry. -/
theorem LimitTable.entry_update (f : Limit → Limit) :
    ((((m.limit k' t').map fun l => m.setLimit k' t' (f l)).getD m).entry k t) =
      if k' = k ∧ t' = t then Entry.update f (m.entry k t) else m.entry k t := by
  rcases hl : m.limit k' t' with _ | l
  · rw [Option.map_none, Option.getD_none]
    split_ifs with h
    · -- there is nothing to write to
      obtain ⟨rfl, rfl⟩ := h
      rw [limit_eq_join] at hl
      rcases he : m.entry k' t' with _ | o <;> rw [he] at hl
      · rfl
      · rw [show o = none from hl]
        rfl
    · rfl
  · rw [Option.map_some, Option.getD_some, entry_setLimit hl]
    split_ifs with h
    · obtain ⟨rfl, rfl⟩ := h
      rw [entry_of_limit hl]
      rfl
    · rfl

/-- Making the limits of a user changes the entries of the user. -/
theorem LimitTable.entry_init (h : m.initLimitsByUsername config k' = some m') :
    (k' = k → Entry.create config t (m.entry k t) = some (m'.entry k t)) ∧
      (k' ≠ k → m'.entry k t = m.entry k t) := by
  unfold initLimitsByUsername at h
  rcases hk : m.lookup k' with _ | ul <;> rw [hk] at h
  · obtain ⟨base, hbase, rfl⟩ := Option.map_eq_some_iff.mp h
    constructor
    · rintro rfl
      simp only [entry, hk, AList.lookup_insert, Option.map_none, Option.map_some, Entry.create,
        hbase]
    · intro hne
      unfold entry
      rw [AList.lookup_insert_ne (Ne.symm hne)]
  · cases h
    constructor
    · rintro rfl
      simp only [entry, hk, Option.map_some, Entry.create]
    · exact fun _ => rfl

/-- A reset changes the entries of the user. -/
theorem LimitTable.entry_resetLimits (h : m.resetLimits k' = some m') :
    m'.entry k t = if k' = k then Entry.update Limit.resetAll (m.entry k t) else m.entry k t := by
  unfold resetLimits at h
  rcases hk : m.lookup k' with _ | ul <;> rw [hk] at h
  · cases h
    split_ifs with hkk
    · subst hkk
      rw [entry, hk]
      rfl
    · rfl
  · simp only [Option.ite_none_right_eq_some, Option.some.injEq] at h
    obtain ⟨-, rfl⟩ := h
    unfold entry
    split_ifs with hkk
    · subst hkk
      rw [AList.lookup_insert, hk]
      simp only [Option.map_some, Entry.update, UserLimits.get, GoMap.lookup_mapVal]
      rcases ul.lookup t with _ | _ | l <;> rfl
    · rw [AList.lookup_insert_ne (Ne.symm hkk)]

/-- One question, seen through an entry. -/
theorem LimitTable.entry_allow {r : Option (Bool × ℤ) × LimitTable}
    (h : m.allow k' t' now = some r) :
    (k' = k ∧ t' = t → (Entry.ask now (m.entry k t)).map
        (fun q => (q.1, q.2.map Prod.fst)) = some (r.2.entry k t, r.1)) ∧
      (¬(k' = k ∧ t' = t) → r.2.entry k t = m.entry k t) := by
  unfold allow at h
  rcases hl : m.limit k' t' with _ | l <;> rw [hl] at h
  · cases h
    refine ⟨?_, fun _ => rfl⟩
    rintro ⟨rfl, rfl⟩
    rw [limit_eq_join] at hl
    simp only [Entry.ask, hl, Option.map_some, Option.map_none]
  · obtain ⟨q, hq, rfl⟩ := Option.map_eq_some_iff.mp h
    constructor
    · rintro ⟨rfl, rfl⟩
      have hjoin : (m.entry k' t').join = some l := by rw [← limit_eq_join, hl]
      simp only [Entry.ask, hjoin, hq, Option.map_some, entry_setLimit hl, and_self, if_true]
    · intro hne
      rw [entry_setLimit hl, if_neg hne]

/-- Loading states changes the entries of the user. -/
theorem LimitTable.entry_loadStates (states : List LimitState) :
    LimitTable.entry (states.foldl (LimitTable.loadState k') m) k t =
      if k' = k then Entry.load t states (m.entry k t) else m.entry k t := by
  induction states generalizing m with
  | nil =>
      simp only [List.foldl_nil, Entry.load, List.filter_nil, Entry.update]
      split_ifs
      · rcases m.entry k t with _ | _ | l <;> rfl
      · rfl
  | cons s states ih =>
      have hone : (LimitTable.loadState k' m s).entry k t =
          if k' = k ∧ s.type = t then Entry.update (fun l => l.load s) (m.entry k t)
          else m.entry k t := by
        rw [← entry_update]
        unfold loadState
        rcases m.limit k' s.type with _ | l <;> rfl
      rw [List.foldl_cons, ih, hone]
      by_cases hk : k' = k
      · simp only [hk, true_and, if_true]
        unfold Entry.load
        by_cases hs : s.type = t
        · rw [if_pos hs, List.filter_cons_of_pos (by simpa using hs)]
          rcases m.entry k t with _ | _ | l <;> rfl
        · rw [if_neg hs, List.filter_cons_of_neg (by simpa using hs)]
      · simp only [hk, false_and, if_false]

/-- Loading a file changes the entry of a user by the rounds of the user. -/
theorem LimitTable.entry_loadLimitStates {states : List (Σ _ : UserKey, List LimitState)}
    (h : m.loadLimitStates config states = some m') :
    ((states.filter fun e => e.1 = k).map Sigma.snd).foldlM
      (fun e states => (Entry.create config t e).map (Entry.load t states)) (m.entry k t) =
      some (m'.entry k t) := by
  induction states generalizing m with
  | nil =>
      cases h
      rfl
  | cons e states ih =>
      unfold loadLimitStates at h
      rw [List.foldlM_cons] at h
      obtain ⟨m₂, hround, h⟩ := Option.bind_eq_some_iff.mp h
      obtain ⟨m₁, hinit, rfl⟩ := Option.map_eq_some_iff.mp hround
      have hrest := ih h
      obtain ⟨hself, hother⟩ := entry_init (k := k) (t := t) hinit
      rw [entry_loadStates] at hrest
      by_cases hk : e.1 = k
      · rw [if_pos hk] at hrest
        rw [List.filter_cons_of_pos (by simpa using hk), List.map_cons, List.foldlM_cons,
          hself hk]
        exact hrest
      · rw [if_neg hk, hother hk] at hrest
        rw [List.filter_cons_of_neg (by simpa using hk)]
        exact hrest

/-- The loop over the limits of a user asks the limit of each type once, and lists it under its
type. -/
theorem exportRounds_entry {es : List (Σ _ : AuthType, Option Limit)}
    {acc r : UserLimits × List LimitForExport} (hnd : (es.map Sigma.fst).Nodup)
    (hkeyed : ∀ e ∈ es, ∀ l, e.2 = some l → l.type0 = e.1)
    (h : es.foldlM (exportRound now) acc = some r) :
    ∃ les, r.2 = acc.2 ++ les ∧
      (t ∉ es.map Sigma.fst → r.1.get t = acc.1.get t ∧ ∀ le ∈ les, le.type ≠ t) ∧
      ∀ o, ⟨t, o⟩ ∈ es → ∃ l answer l', o = some l ∧ l.allow now = some (answer, l') ∧
        r.1.get t = some l' ∧
        (les.find? fun le => le.type = t) = some (l'.forExport answer) := by
  induction es generalizing acc with
  | nil =>
      cases h
      exact ⟨[], (List.append_nil _).symm, fun _ => ⟨rfl, by simp⟩, by simp⟩
  | cons e es ih =>
      rw [List.map_cons, List.nodup_cons] at hnd
      obtain ⟨hkey, hkeyed⟩ := List.forall_mem_cons.mp hkeyed
      rw [List.foldlM_cons] at h
      obtain ⟨acc', hround, h⟩ := Option.bind_eq_some_iff.mp h
      obtain ⟨l, hl, hround⟩ := Option.bind_eq_some_iff.mp hround
      obtain ⟨⟨answer, l'⟩, hallow, rfl⟩ := Option.map_eq_some_iff.mp hround
      have htype : (l'.forExport answer).type = e.1 :=
        (Limit.allow_sameConfig hallow).1.trans (hkey l hl)
      obtain ⟨les, hles, hout, hin⟩ := ih hnd.2 hkeyed h
      refine ⟨l'.forExport answer :: les, ?_, ?_, ?_⟩
      · rw [hles, List.append_assoc, List.singleton_append]
      · intro ht
        rw [List.map_cons, List.mem_cons, not_or] at ht
        obtain ⟨hget, hne⟩ := hout ht.2
        refine ⟨?_, List.forall_mem_cons.mpr ⟨?_, hne⟩⟩
        · rw [hget, UserLimits.get, AList.lookup_insert_ne ht.1]
          rfl
        · rw [htype]
          exact Ne.symm ht.1
      · intro o ho
        rcases List.mem_cons.mp ho with rfl | ho
        · -- no later round is about this type
          refine ⟨l, answer, l', hl, hallow, ?_, ?_⟩
          · rw [(hout hnd.1).1, UserLimits.get, AList.lookup_insert]
            rfl
          · exact List.find?_cons_of_pos (by simpa using htype)
        · obtain ⟨l₁, answer₁, l₁', h₁, h₂, h₃, h₄⟩ := hin o ho
          refine ⟨l₁, answer₁, l₁', h₁, h₂, h₃, ?_⟩
          rw [List.find?_cons_of_neg, h₄]
          rw [htype, decide_eq_true_eq]
          rintro rfl
          exact hnd.1 (List.mem_map.mpr ⟨_, ho, rfl⟩)

/-- The list of the limits of a user, seen through an entry. -/
theorem LimitTable.entry_getLimits (hwf : m.WellFormed) {r : List LimitForExport × LimitTable}
    (h : m.getLimits order k' now = some r) :
    (k' = k → (Entry.ask now (m.entry k t)).map
        (fun q => (q.1, q.2.map fun q => q.2.forExport q.1)) =
          some (r.2.entry k t, r.1.find? fun le => le.type = t)) ∧
      (k' ≠ k → r.2.entry k t = m.entry k t) := by
  unfold getLimits at h
  rcases hk : m.lookup k' with _ | ul <;> rw [hk] at h
  · cases h
    refine ⟨?_, fun _ => rfl⟩
    rintro rfl
    rw [entry, hk]
    rfl
  · obtain ⟨r', hr', rfl⟩ := Option.map_eq_some_iff.mp h
    have hranges := order.limits_ranges k' ul
    have hkeyed : ∀ e ∈ order.limits k' ul, ∀ l, e.2 = some l → l.type0 = e.1 := by
      rintro ⟨t, o⟩ he l rfl
      obtain ⟨l₁, hl₁, htype, -⟩ := (hwf k' ul hk).keyed t _ (hranges.mem_iff.mp he)
      rw [Option.some.inj hl₁, htype]
    obtain ⟨les, hles, hout, hin⟩ := exportRounds_entry (t := t) hranges.nodup hkeyed hr'
    rw [List.nil_append] at hles
    constructor
    · rintro rfl
      simp only [entry, hk, AList.lookup_insert, Option.map_some, Entry.ask, Option.join_some]
      rcases ht : ul.lookup t with _ | o
      · -- no limit of the type, and so no round about it
        have hnot : t ∉ (order.limits k' ul).map Sigma.fst := by
          rw [hranges.mem_keys_iff, ht]
          simp
        obtain ⟨hget, hne⟩ := hout hnot
        have hfind : (r'.2.find? fun le => le.type = t) = none := by
          rw [hles, List.find?_eq_none]
          simpa using hne
        rw [hget, hfind]
        simp only [UserLimits.get, ht, Option.join_none, Option.map_some, Option.map_none]
      · obtain ⟨l, answer, l', rfl, hallow, hget, hfind⟩ := hin o (hranges.mem_iff.mpr ht)
        rw [hget, hles, hfind]
        simp only [UserLimits.get, ht, Option.join_some, hallow, Option.map_some]
    · intro hne
      unfold entry
      rw [AList.lookup_insert_ne (Ne.symm hne)]

/-- **One call on the table**, seen through an entry: it leaves the entry alone, or is a step of
it. -/
theorem call_onEntry (hwf : m.WellFormed) {c : LimitsCall} {answer : LimitsAnswer}
    (h : m.call config order (now, c) = some (m', answer)) :
    match c.onEntry k t with
    | none => m'.entry k t = m.entry k t
    | some op =>
        Entry.step config t (m.entry k t) (now, op) = some (m'.entry k t, answer.about t) := by
  cases c with
  | table op =>
      obtain ⟨r, hr, heq⟩ := Option.map_eq_some_iff.mp h
      cases heq
      cases op with
      | initLimitsByUsername k' =>
          obtain ⟨m₁, h₁, heq⟩ := Option.map_eq_some_iff.mp hr
          cases heq
          obtain ⟨hself, hother⟩ := LimitTable.entry_init (k := k) (t := t) h₁
          simp only [LimitsCall.onEntry, TableOp.onEntry]
          split_ifs with hk
          · simp only [Entry.step, hself hk, Option.map_some, LimitsAnswer.about]
          · exact hother hk
      | allow k' t' =>
          obtain ⟨q, hq, heq⟩ := Option.map_eq_some_iff.mp hr
          cases heq
          obtain ⟨hself, hother⟩ := LimitTable.entry_allow (k := k) (t := t) hq
          simp only [LimitsCall.onEntry, TableOp.onEntry]
          split_ifs with hkt
          · obtain ⟨r, hr', heq⟩ := Option.map_eq_some_iff.mp (hself hkt)
            obtain ⟨h₁, h₂⟩ := Prod.mk.inj heq
            simp only [Entry.step, hr', Option.map_some, h₁, h₂, LimitsAnswer.about]
          · exact hother hkt
      | fail k' t' =>
          cases hr
          have hentry := @LimitTable.entry_update m k k' t t' fun l => l.fail now
          simp only [LimitsCall.onEntry, TableOp.onEntry]
          split_ifs with hkt
          · rw [if_pos hkt] at hentry
            exact congrArg (fun e => some (e, EntryAnswer.allowed none)) hentry.symm
          · exact hentry.trans (if_neg hkt)
      | success k' t' =>
          cases hr
          have hentry := @LimitTable.entry_update m k k' t t' Limit.reset
          simp only [LimitsCall.onEntry, TableOp.onEntry]
          split_ifs with hkt
          · rw [if_pos hkt] at hentry
            exact congrArg (fun e => some (e, EntryAnswer.allowed none)) hentry.symm
          · exact hentry.trans (if_neg hkt)
      | resetLimits k' =>
          obtain ⟨m₁, h₁, heq⟩ := Option.map_eq_some_iff.mp hr
          cases heq
          have hentry := LimitTable.entry_resetLimits (k := k) (t := t) h₁
          simp only [LimitsCall.onEntry, TableOp.onEntry]
          split_ifs with hk
          · rw [hentry, if_pos hk]
            rfl
          · exact hentry.trans (if_neg hk)
      | userListChanged existUserList =>
          cases hr
          have hentry : (m.deleteUsers existUserList).entry k t =
              if k.2 ∈ existUserList then m.entry k t else none := by
            unfold LimitTable.entry
            rw [LimitTable.lookup_deleteUsers]
            split_ifs <;> rfl
          simp only [LimitsCall.onEntry, TableOp.onEntry]
          split_ifs with hk
          · exact hentry.trans (if_pos hk)
          · rw [hentry, if_neg hk]
            rfl
  | getLimits k' =>
      obtain ⟨r, hr, heq⟩ := Option.map_eq_some_iff.mp h
      cases heq
      obtain ⟨hself, hother⟩ := LimitTable.entry_getLimits (k := k) (t := t) hwf hr
      simp only [LimitsCall.onEntry]
      split_ifs with hk
      · obtain ⟨q, hq, heq⟩ := Option.map_eq_some_iff.mp (hself hk)
        obtain ⟨h₁, h₂⟩ := Prod.mk.inj heq
        simp only [Entry.step, hq, Option.map_some, h₁, h₂, LimitsAnswer.about]
      · exact hother hk
  | getLimitStates =>
      obtain ⟨states, -, heq⟩ := Option.map_eq_some_iff.mp h
      cases heq
      rfl
  | loadStates k' states =>
      cases h
      have hentry := @LimitTable.entry_loadStates m k k' t states
      simp only [LimitsCall.onEntry]
      split_ifs with hk
      · rw [hentry, if_pos hk]
        rfl
      · exact hentry.trans (if_neg hk)
  | loadLimitStates states =>
      obtain ⟨m₁, hm₁, heq⟩ := Option.map_eq_some_iff.mp h
      cases heq
      simp only [LimitsCall.onEntry, Entry.step, LimitTable.entry_loadLimitStates hm₁,
        Option.map_some, LimitsAnswer.about]

/-! ## Runs, seen through an entry -/

/-- Over a configuration with a null element, no user gets limits. -/
theorem call_empty (hnone : newUserLimits config = none) {c : ℤ × LimitsCall}
    {answer : LimitsAnswer} (h : LimitTable.call config order ∅ c = some (m', answer)) :
    m' = ∅ := by
  have hinit : ∀ k, LimitTable.initLimitsByUsername config ∅ k = none := by
    intro k
    rw [LimitTable.initLimitsByUsername, AList.lookup_empty, hnone]
    rfl
  obtain ⟨now, c⟩ := c
  cases c with
  | table op =>
      obtain ⟨r, hr, heq⟩ := Option.map_eq_some_iff.mp h
      cases heq
      cases op with
      | initLimitsByUsername k =>
          rw [LimitTable.step, hinit] at hr
          cases hr
      | allow k t => cases hr; rfl
      | fail k t => cases hr; rfl
      | success k t => cases hr; rfl
      | resetLimits k => cases hr; rfl
      | userListChanged existUserList => cases hr; rfl
  | getLimits k => cases h; rfl
  | getLimitStates =>
      obtain ⟨states, -, heq⟩ := Option.map_eq_some_iff.mp h
      cases heq
      rfl
  | loadStates k states =>
      cases h
      induction states with
      | nil => rfl
      | cons s states ih => exact ih
  | loadLimitStates states =>
      obtain ⟨m₁, hm₁, heq⟩ := Option.map_eq_some_iff.mp h
      cases heq
      rcases states with _ | ⟨e, states⟩
      · cases hm₁
        rfl
      · unfold LimitTable.loadLimitStates at hm₁
        rw [List.foldlM_cons, hinit] at hm₁
        cases hm₁

/-- The table has the limits of the configuration, and no users where it makes none. -/
def LimitTable.Made (config : List (Option LimitConfig)) (m : LimitTable) : Prop :=
  (∀ base, newUserLimits config = some base → m.FromConfig base) ∧
    (newUserLimits config = none → m = ∅)

theorem LimitTable.made_empty : LimitTable.Made config ∅ :=
  ⟨fun _ _ => fromConfig_empty, fun _ => rfl⟩

/-- Calls make no other limits. -/
theorem LimitTable.Made.call (hm : m.Made config) {c : ℤ × LimitsCall} {answer : LimitsAnswer}
    (h : m.call config order c = some (m', answer)) : m'.Made config := by
  refine ⟨fun base hbase => call_fromConfig hbase (hm.1 base hbase) h, ?_⟩
  intro hnone
  obtain rfl := hm.2 hnone
  exact call_empty hnone h

/-- Such a table is complete. -/
theorem LimitTable.Made.wellFormed (hm : m.Made config) : m.WellFormed := by
  rcases hbase : newUserLimits config with _ | base
  · obtain rfl := hm.2 hbase
    intro k ul hul
    rw [AList.lookup_empty] at hul
    cases hul
  · exact (hm.1 base hbase).wellFormed hbase

/-- **An entry runs on its own.** -/
theorem run_onEntry {calls : List (ℤ × LimitsCall)} {answers : List LimitsAnswer}
    (hm : m.Made config) (hr : run (LimitTable.call config order) m calls = some (m', answers)) :
    run (Entry.step config t) (m.entry k t) (calls.filterMap (concerning k t)) =
      some (m'.entry k t, shown (concerning k t) (fun _ answer => answer.about t) calls answers) := by
  refine run_project (I := LimitTable.Made config) (f := fun m => m.entry k t)
    (g := concerning k t) (o := fun _ answer => answer.about t) ?_ ?_ ?_ hm hr
  · exact fun m c m' answer hm h => hm.call h
  · rintro m ⟨now, c⟩ m' answer hm h hc
    have hentry := call_onEntry (k := k) (t := t) hm.wellFormed h
    rw [show c.onEntry k t = none from Option.map_eq_none_iff.mp hc] at hentry
    exact hentry
  · rintro m ⟨now, c⟩ m' answer op hm h hc
    obtain ⟨op', hop, rfl⟩ := Option.map_eq_some_iff.mp hc
    have hentry := call_onEntry (k := k) (t := t) hm.wellFormed h
    rw [show c.onEntry k t = some op' from hop] at hentry
    exact hentry

/-- **The limits of a user do not depend on those of others.** Take two histories of the limits,
each from the empty table, in which the calls that concern a user and a type come to the same: the
entry of the user for the type ends up the same, and each of these calls is answered the same. What
was called about other users and other types, how often and when makes no difference. -/
theorem limits_isolated {order' : StatesOrder} {calls calls' : List (ℤ × LimitsCall)}
    {answers answers' : List LimitsAnswer}
    (hr : run (LimitTable.call config order) ∅ calls = some (m, answers))
    (hr' : run (LimitTable.call config order') ∅ calls' = some (m', answers'))
    (hcalls : calls.filterMap (concerning k t) = calls'.filterMap (concerning k t)) :
    m.entry k t = m'.entry k t ∧
      shown (concerning k t) (fun _ answer => answer.about t) calls answers =
        shown (concerning k t) (fun _ answer => answer.about t) calls' answers' := by
  have h := run_onEntry (k := k) (t := t) LimitTable.made_empty hr
  rw [hcalls, run_onEntry LimitTable.made_empty hr', Option.some.injEq, Prod.mk.injEq] at h
  exact ⟨h.1.symm, h.2.symm⟩

/-- A password failed once, and asked about. -/
def failAndAsk (k : UserKey) : List (ℤ × LimitsCall) :=
  [(0, .table (.initLimitsByUsername k)), (1, .table (.fail k .password)),
    (2, .table (.allow k .password))]

/-- Two users in turn, and one of them alone. -/
theorem limits_isolated_two_users :
    ∃ m answers m' answers',
      run (LimitTable.call [] .listed) ∅
        (failAndAsk (.Local, "root") ++ failAndAsk (.Local, "uos")) = some (m, answers) ∧
      run (LimitTable.call [] .listed) ∅ (failAndAsk (.Local, "uos")) = some (m', answers') ∧
      m.entry (.Local, "uos") .password = m'.entry (.Local, "uos") .password := by
  obtain ⟨⟨m, answers⟩, hr⟩ : ∃ r, run (LimitTable.call [] .listed) ∅
      (failAndAsk (.Local, "root") ++ failAndAsk (.Local, "uos")) = some r := ⟨_, rfl⟩
  obtain ⟨⟨m', answers'⟩, hr'⟩ : ∃ r, run (LimitTable.call [] .listed) ∅
      (failAndAsk (.Local, "uos")) = some r := ⟨_, rfl⟩
  exact ⟨m, answers, m', answers', hr, hr', (limits_isolated hr hr' (by decide)).1⟩

end entries

end LingmoAuthenticate.Limits
