import LingmoAuthenticate.Lib.GoMap
import LingmoAuthenticate.Limits.Limit

/-!
# The limits of all users: `manager.go`

`Manager.limits` and the functions that read and write it under `limitsMu`. The two outer maps of
the source (by limit type, then by user) are one map on pairs: a limit type without users is
read by no function differently from an absent one. A nil pointer is `none`, and so is the panic
of following one. The order of every loop over a map is a parameter.

* `newUserLimits` is the map that `initLimitsByUsername` makes for a new user;
  `newUserLimits_wellFormed`: every type has a limit, under its own name.
* `LimitTable.step` is one call.
* `getLimitStates` and `loadLimitStates` are the snapshot and its reading back, in
  `lookup_getLimitStates` and `lookup_loadLimitStates` user by user.
-/

namespace LingmoAuthenticate.Limits

open Lib AuthCommon

/-! ## The table -/

/-- The limits of one user by type name. Source: `manager.go`, the values of `Manager.limits`. -/
abbrev UserLimits := GoMap AuthType (Option Limit)

/-- Whose limits: a limit type and a user name. -/
abbrev UserKey := LimitType × String

/-- Source: `manager.go`, `Manager.limits`. -/
abbrev LimitTable := GoMap UserKey UserLimits

/-- What of a limit is written to disk. Source: `limit.go`, `LimitState`. -/
structure LimitState where
  type : AuthType
  numFailures : ℤ
  lockAt : ℤ
  deriving DecidableEq, Repr

/-- Source: `manager.go`, the map that `Manager.getLimitStates` returns. -/
abbrev LimitStates := GoMap UserKey (List LimitState)

/-- The state of a limit. Source: `manager.go`, `Manager.getLimitStates`. -/
def Limit.state (l : Limit) : LimitState := ⟨l.type0, l.numFailures, l.lockAt⟩

/-- A limit set from its state. Source: `manager.go`, `Manager.loadLimitStates`. -/
def Limit.load (l : Limit) (s : LimitState) : Limit :=
  { l with lockAt := s.lockAt, numFailures := s.numFailures }

/-- The pointer under a type name, nil where there is none. -/
def UserLimits.get (ul : UserLimits) (t : AuthType) : Option Limit := (ul.lookup t).join

namespace LimitTable

/-- `m.limits[limitType][username][type0]`. -/
def limit (m : LimitTable) (k : UserKey) (t : AuthType) : Option Limit :=
  (m.lookup k).bind fun ul => ul.get t

/-- Write through the pointer `m.limits[limitType][username][type0]`. -/
def setLimit (m : LimitTable) (k : UserKey) (t : AuthType) (l : Limit) : LimitTable :=
  match m.lookup k with
  | none => m
  | some ul => m.insert k (ul.insert t (some l))

end LimitTable

/-! ## New users -/

/-- One round of the loop over the configuration; a null element panics.
Source: `manager.go`, `Manager.initLimitsByUsername`. -/
def addConfig (ul : UserLimits) (limitConfig : Option LimitConfig) : Option UserLimits :=
  limitConfig.map fun c =>
    if authTypeToFlag c.type = 0 then ul else ul.insert c.type (some (.ofConfig c))

/-- One round of the last loop: a type without configuration is unlimited.
Source: `manager.go`, `Manager.initLimitsByUsername`. -/
def addDefault (ul : UserLimits) (t : AuthType) : UserLimits :=
  if ul.get t = none then ul.insert t (some (.unlimited t)) else ul

/-- The limits of a new user.
Source: `manager.go`, `Manager.initLimitsByUsername`. -/
def newUserLimits (config : List (Option LimitConfig)) : Option UserLimits :=
  let nils : UserLimits := allAuthTypes.foldl (fun ul t => ul.insert t none) ∅
  (config.foldlM addConfig nils).map fun ul => allAuthTypes.foldl addDefault ul

namespace LimitTable

/-- Make the limits of a user that has none yet.
Source: `manager.go`, `Manager.initLimitsByUsername`. -/
def initLimitsByUsername (config : List (Option LimitConfig)) (m : LimitTable) (k : UserKey) :
    Option LimitTable :=
  if (m.lookup k).isSome then some m else (newUserLimits config).map fun ul => m.insert k ul

/-! ## The operations under `limitsMu` -/

/-- `limit.allow` on an entry; no answer where there is no entry.
Source: `manager.go`, `Manager.allowTx`, and each round of `Manager.getLimits`. -/
def allow (m : LimitTable) (k : UserKey) (t : AuthType) (now : ℤ) :
    Option (Option (Bool × ℤ) × LimitTable) :=
  match m.limit k t with
  | none => some (none, m)
  | some l => (l.allow now).map fun r => (some r.1, m.setLimit k t r.2)

/-- Source: `manager.go`, `Manager.allowTx`. -/
def allowTx (m : LimitTable) (k : UserKey) (t : AuthType) (now : ℤ) :
    Option (Bool × LimitTable) :=
  (m.allow k t now).map fun r => (r.1.elim false Prod.fst, r.2)

/-- The update of `Manager.fail`; without an entry the call returns there.
Source: `manager.go`, `Manager.fail`. -/
def fail (m : LimitTable) (k : UserKey) (t : AuthType) (now : ℤ) : Option LimitTable :=
  (m.limit k t).map fun l => m.setLimit k t (l.fail now)

/-- The update of `Manager.success`; without an entry the call returns there.
Source: `manager.go`, `Manager.success`. -/
def success (m : LimitTable) (k : UserKey) (t : AuthType) : Option LimitTable :=
  (m.limit k t).map fun l => m.setLimit k t l.reset

/-- The update of `Manager.resetLimits`; a nil entry panics.
Source: `manager.go`, `Manager.resetLimits`. -/
def resetLimits (m : LimitTable) (k : UserKey) : Option LimitTable :=
  match m.lookup k with
  | none => some m
  | some ul =>
      if ∀ e ∈ ul.entries, e.2.isSome then
        some (m.insert k (ul.mapVal fun _ l => l.map Limit.resetAll))
      else none

/-- The deletion of users that no longer exist.
Source: `manager.go`, the loop in `Manager.initLimitsUserListWatcher`. -/
def deleteUsers (m : LimitTable) (existUserList : List String) : LimitTable :=
  (m.keys.filter fun k => k.2 ∉ existUserList).foldl (fun m k => m.erase k) m

end LimitTable

/-- The calls on the table: the limits of a user are made, asked, charged with a failure, told of a
success or reset, and the users that are not in a new list are deleted. -/
inductive TableOp where
  | initLimitsByUsername (k : UserKey)
  | allow (k : UserKey) (t : AuthType)
  | fail (k : UserKey) (t : AuthType)
  | success (k : UserKey) (t : AuthType)
  | resetLimits (k : UserKey)
  | userListChanged (existUserList : List String)
  deriving DecidableEq, Repr

/-- One call at an instant, observed through the answer of an `allow`; `none` is a panic. -/
def LimitTable.step (config : List (Option LimitConfig)) (m : LimitTable) :
    ℤ × TableOp → Option (LimitTable × Option (Bool × ℤ))
  | (_, .initLimitsByUsername k) => (m.initLimitsByUsername config k).map fun m => (m, none)
  | (now, .allow k t) => (m.allow k t now).map fun r => (r.2, r.1)
  | (now, .fail k t) => some (((m.fail k t now).getD m), none)
  | (_, .success k t) => some (((m.success k t).getD m), none)
  | (_, .resetLimits k) => (m.resetLimits k).map fun m => (m, none)
  | (_, .userListChanged existUserList) => some (m.deleteUsers existUserList, none)

/-! ## Snapshots -/

/-- The orders in which the loops of `getLimitStates` visit the table and the limits of each user;
both visit every entry once. -/
structure StatesOrder where
  users : LimitTable → List (Σ _ : UserKey, UserLimits)
  limits : UserKey → UserLimits → List (Σ _ : AuthType, Option Limit)
  users_ranges : ∀ m : LimitTable, m.Ranges (users m)
  limits_ranges : ∀ (k : UserKey) (ul : UserLimits), ul.Ranges (limits k ul)

/-- The loops that visit the entries as they are listed. -/
def StatesOrder.listed : StatesOrder where
  users m := m.entries
  limits _ ul := ul.entries
  users_ranges m := m.ranges_entries
  limits_ranges _ ul := ul.ranges_entries

/-- One round of the inner loop: `append` to the states of the user; a nil entry panics.
Source: `manager.go`, `Manager.getLimitStates`. -/
def appendState (k : UserKey) (states : LimitStates) (e : Σ _ : AuthType, Option Limit) :
    Option LimitStates :=
  e.2.map fun ll => states.insert k ((states.lookup k).getD [] ++ [ll.state])

/-- Source: `manager.go`, `Manager.getLimitStates`. -/
def LimitTable.getLimitStates (order : StatesOrder) (m : LimitTable) : Option LimitStates :=
  (order.users m).foldlM (fun states e => (order.limits e.1 e.2).foldlM (appendState e.1) states) ∅

/-! ## The files -/

/-- What reading a file yields; a decoder that fails may leave part of the content behind. -/
inductive FileContent (α : Type) where
  | missing
  | decoded (a : α)
  | corrupt (partially : α)

/-- The two files of states, read as what they decode to.
Source: `limit.go`, `limitStatesV1File` and `limitStatesFile`. -/
structure StateFiles where
  v1 : FileContent LimitStates
  old : FileContent (GoMap String (List LimitState))

/-- The states of one limit type. Source: `limit.go`, `states[Local]`. -/
def LimitStates.ofType (states : LimitStates) (t : LimitType) : GoMap String (List LimitState) :=
  states.entries.foldl (fun m e => if e.1.1 = t then m.insert e.1.2 e.2 else m) ∅

/-- Both files are written, the older one with the local states alone.
Source: `limit.go`, `saveLimitStates`, where every write succeeds. -/
def saveLimitStates (states : LimitStates) : StateFiles where
  v1 := .decoded states
  old := .decoded (states.ofType .Local)

/-- The states to load: the older file only counts where the newer one is missing, and then for
both limit types. Source: `manager.go`, the first part of `Manager.loadLimitStates`. -/
def StateFiles.states (files : StateFiles) : LimitStates :=
  match files.v1 with
  | .decoded states => states
  | .corrupt states => states
  | .missing =>
      match files.old with
      | .decoded states =>
          states.entries.foldl (fun m e => (m.insert (.Local, e.1) e.2).insert (.Remote, e.1) e.2) ∅
      | _ => ∅

namespace LimitTable

/-- One round of the inner loop; a state of a type without an entry is skipped.
Source: `manager.go`, `Manager.loadLimitStates`. -/
def loadState (k : UserKey) (m : LimitTable) (state : LimitState) : LimitTable :=
  match m.limit k state.type with
  | none => m
  | some ll => m.setLimit k state.type (ll.load state)

/-- The loop over the states, in the order given.
Source: `manager.go`, the second part of `Manager.loadLimitStates`. -/
def loadLimitStates (config : List (Option LimitConfig)) (m : LimitTable)
    (order : List (Σ _ : UserKey, List LimitState)) : Option LimitTable :=
  order.foldlM (fun m e => (m.initLimitsByUsername config e.1).map fun m =>
    e.2.foldl (loadState e.1) m) m

/-! ## Lookups after a write -/

section lookups

variable {m : LimitTable} {k : UserKey} {t : AuthType} {l : Limit}

/-- A write through a pointer changes one user. -/
theorem lookup_setLimit (k' : UserKey) :
    (m.setLimit k t l).lookup k' =
      if k' = k then (m.lookup k).map fun ul => ul.insert t (some l) else m.lookup k' := by
  unfold setLimit
  by_cases hk : k' = k
  · subst hk
    rw [if_pos rfl]
    rcases h : m.lookup k' with _ | ul
    · exact h
    · exact AList.lookup_insert m
  · rw [if_neg hk]
    rcases m.lookup k with _ | ul
    · rfl
    · exact AList.lookup_insert_ne hk

/-- A limit that is found belongs to a user, under its type. -/
theorem limit_eq_some_iff :
    m.limit k t = some l ↔ ∃ ul, m.lookup k = some ul ∧ ul.lookup t = some (some l) := by
  unfold limit UserLimits.get
  simp only [Option.bind_eq_some_iff, Option.join_eq_some_iff]

/-- Only the users asked for are deleted. -/
theorem lookup_deleteUsers (existUserList : List String) (k : UserKey) :
    (m.deleteUsers existUserList).lookup k =
      if k.2 ∈ existUserList then m.lookup k else none := by
  obtain ⟨h₁, h₂⟩ := GoMap.lookup_foldl (p := id) (f := fun m k => m.erase k)
    (g := fun _ _ => none)
    (fun m k => ⟨AList.lookup_erase k m, fun k' hk => AList.lookup_erase_ne hk⟩)
    (show ((m.keys.filter fun k => k.2 ∉ existUserList).map id).Nodup by
      simpa using m.keys_nodup.filter _) m
  simp only [List.mem_filter, AList.mem_keys.symm, List.map_id, decide_eq_true_eq] at h₁ h₂
  split_ifs with hex
  · exact h₂ k fun hk => hk.2 hex
  · by_cases hk : k ∈ m
    · exact h₁ k ⟨hk, hex⟩
    · rw [deleteUsers, h₂ k fun h => hk h.1, AList.lookup_eq_none]
      exact hk

end lookups

end LimitTable

/-! ## New users have a limit of every type -/

/-- Every type of the table of types has an entry, and every entry is a limit under its own
name. -/
structure UserLimits.WellFormed (ul : UserLimits) : Prop where
  complete : ∀ t ∈ allAuthTypes, (ul.lookup t).isSome
  keyed : ∀ t o, ul.lookup t = some o →
    ∃ l, o = some l ∧ l.type0 = t ∧ l.flag = authTypeToFlag t ∧ authTypeToFlag t ≠ 0

/-- What holds between the loops of `initLimitsByUsername`: the entries that are still nil are
those of the types in `ts`. -/
structure UserLimits.Pending (ts : List AuthType) (ul : UserLimits) : Prop where
  complete : ∀ t ∈ allAuthTypes, (ul.lookup t).isSome
  keyed : ∀ t o, ul.lookup t = some o →
    (o = none ∧ t ∈ ts) ∨
      ∃ l, o = some l ∧ l.type0 = t ∧ l.flag = authTypeToFlag t ∧ authTypeToFlag t ≠ 0

/-- Putting a limit under its own name keeps the table of types, and serves one type. -/
theorem UserLimits.Pending.insert {ts : List AuthType} {ul : UserLimits} {l : Limit}
    {t : AuthType} (h : ul.Pending (t :: ts)) (ht : l.type0 = t)
    (hf : l.flag = authTypeToFlag t) (h0 : authTypeToFlag t ≠ 0) :
    UserLimits.Pending ts (ul.insert t (some l)) := by
  constructor
  · intro u hu
    by_cases htu : u = t
    · rw [htu, AList.lookup_insert]
      rfl
    · rw [AList.lookup_insert_ne htu]
      exact h.complete u hu
  · intro u o hu
    by_cases htu : u = t
    · rw [htu, AList.lookup_insert, Option.some.injEq] at hu
      subst htu
      exact Or.inr ⟨l, hu.symm, ht, hf, h0⟩
    · rw [AList.lookup_insert_ne htu] at hu
      rcases h.keyed u o hu with ⟨ho, hmem⟩ | hok
      · exact Or.inl ⟨ho, (List.mem_cons.mp hmem).resolve_left htu⟩
      · exact Or.inr hok

/-- Types may be waited for in vain. -/
theorem UserLimits.Pending.mono {ts ts' : List AuthType} {ul : UserLimits} (h : ul.Pending ts)
    (hts : ∀ t ∈ ts, t ∈ ts') : ul.Pending ts' :=
  ⟨h.complete, fun t o ho => (h.keyed t o ho).imp_left fun hn => ⟨hn.1, hts t hn.2⟩⟩

/-- The loop over the configuration keeps the table of types. -/
theorem UserLimits.Pending.addConfigs {config : List (Option LimitConfig)} {ul ul' : UserLimits}
    (h : ul.Pending allAuthTypes) (hrun : config.foldlM addConfig ul = some ul') :
    ul'.Pending allAuthTypes := by
  induction config generalizing ul with
  | nil =>
      simp only [List.foldlM_nil, Option.pure_def, Option.some.injEq] at hrun
      exact hrun ▸ h
  | cons limitConfig config ih =>
      simp only [List.foldlM_cons, Option.bind_eq_bind, Option.bind_eq_some_iff] at hrun
      obtain ⟨ul₁, h₁, hrun⟩ := hrun
      obtain ⟨c, -, rfl⟩ := Option.map_eq_some_iff.mp h₁
      refine ih ?_ hrun
      split_ifs with hflag
      · exact h
      · exact (h.mono fun t ht => List.mem_cons_of_mem _ ht).insert rfl rfl hflag

/-- The loop over the defaults leaves no type waiting. -/
theorem UserLimits.Pending.addDefaults {ts : List AuthType} (hts : ∀ t ∈ ts, t ∈ allAuthTypes)
    {ul : UserLimits} (h : ul.Pending ts) : (ts.foldl addDefault ul).WellFormed := by
  induction ts generalizing ul with
  | nil =>
      exact ⟨h.complete, fun t o ho => (h.keyed t o ho).resolve_left fun hn => by simp at hn⟩
  | cons t ts ih =>
      refine ih (fun u hu => hts u (List.mem_cons_of_mem _ hu)) ?_
      unfold addDefault
      split_ifs with hget
      · exact h.insert rfl rfl (authTypeToFlag_ne_zero_of_mem (hts t List.mem_cons_self))
      · -- the type has a limit already, so it was not waiting
        refine ⟨h.complete, ?_⟩
        intro u o hu
        rcases h.keyed u o hu with ⟨rfl, hmem⟩ | hok
        · rcases List.mem_cons.mp hmem with rfl | hmem'
          · exact absurd (by rw [UserLimits.get, hu]; rfl) hget
          · exact Or.inl ⟨rfl, hmem'⟩
        · exact Or.inr hok

/-- Before the loops, every type of the table has a nil entry, and no other type has one. -/
theorem pending_nils :
    UserLimits.Pending allAuthTypes (allAuthTypes.foldl (fun ul t => ul.insert t none) ∅) := by
  obtain ⟨h₁, h₂⟩ := GoMap.lookup_foldl (W := Option Limit) (p := id)
    (f := fun ul t => ul.insert t none) (g := fun _ _ => some none)
    (fun ul t => ⟨AList.lookup_insert ul, fun t' ht => AList.lookup_insert_ne ht⟩)
    (show (allAuthTypes.map id).Nodup by decide) ∅
  constructor
  · intro t ht
    rw [show t = id t from rfl, h₁ t ht]
    rfl
  · intro t o ho
    by_cases ht : t ∈ allAuthTypes
    · rw [show t = id t from rfl, h₁ t ht, Option.some.injEq] at ho
      exact Or.inl ⟨ho.symm, ht⟩
    · rw [h₂ t (by simpa using ht)] at ho
      simp at ho

/-- **A new user has a limit of every type**, each under its own name. -/
theorem newUserLimits_wellFormed {config : List (Option LimitConfig)} {ul : UserLimits}
    (h : newUserLimits config = some ul) : ul.WellFormed := by
  obtain ⟨ul₁, h₁, rfl⟩ := Option.map_eq_some_iff.mp h
  exact (pending_nils.addConfigs h₁).addDefaults fun _ ht => ht

/-- Without a null element, the configuration can be read. -/
theorem newUserLimits_isSome {config : List (Option LimitConfig)} (h : none ∉ config) :
    (newUserLimits config).isSome := by
  have hfold : ∀ ul : UserLimits, (config.foldlM addConfig ul).isSome := by
    induction config with
    | nil => intro ul; rfl
    | cons limitConfig config ih =>
        intro ul
        simp only [List.mem_cons, not_or] at h
        rcases limitConfig with _ | c
        · exact absurd rfl h.1
        · exact ih h.2 _
  unfold newUserLimits
  rw [Option.isSome_map]
  exact hfold _

end LingmoAuthenticate.Limits
