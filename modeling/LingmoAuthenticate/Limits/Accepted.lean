import Mathlib.Data.List.ReduceOption
import LingmoAuthenticate.Limits.Allowed
import LingmoAuthenticate.Limits.Asking
import LingmoAuthenticate.Limits.Complete

/-!
# The configurations that `loadConfig` accepts

`loadConfig` decodes a file to a list of limits, puts in the password limit of the session shell
where there is one, and replaces a negative `MaxTries` by zero. It does not look at what a dynamic
limit lists as its durations, and `getDynamicLimitTime` takes the last of them without a check.

* `loadConfig` and `loadSessionShellLimitConfig`, over what the files decode to.
* `loadConfig_isSome_iff`: a null element makes `loadConfig` itself panic, and nothing else does.
* `lookup_newUserLimits`: the limit of a type is made from the last element of that type.
* `accepted_never_panics_iff`: no later call panics, exactly where each dynamic limit that is in
  force and has tries lists a duration.
-/

namespace LingmoAuthenticate.Limits

open Lib AuthCommon

/-! ## The limit of the session shell -/

/-- `strconv.Atoi`: an optional sign and decimal digits, within Go's `int`. -/
def strconvAtoi (s : List Char) : Option ℤ :=
  let digits (ds : List Char) : Option ℤ :=
    if ds ≠ [] ∧ ds.all Char.isDigit then some (Nat.ofDigitChars 10 ds 0 : ℤ) else none
  let v := match s with
    | '-' :: ds => (digits ds).map Neg.neg
    | '+' :: ds => digits ds
    | ds => digits ds
  v.filter fun v => -2 ^ 63 ≤ v ∧ v < 2 ^ 63

/-- The two keys of the section: an integer and a text; `none` where a key cannot be read.
Source: `limit.go`, the keys of `sessionShellKeyFileSection`. -/
structure SessionShellFile where
  maxTries : Option ℤ
  unlockSecs : Option (List Char)

/-- The minutes of the text, as seconds. Source: `limit.go`, the loop of
`loadSessionShellLimitConfig`. -/
def intUnlockSecs (strUnlockSecs : List Char) : Option (List ℤ) :=
  ((strUnlockSecs.filter (· ≠ '"')).splitOn ',').mapM fun str =>
    (strconvAtoi str).map fun val => int64 (val * 60)

/-- The password limit of the session shell; `none` where the file, its section or a key cannot be
read. Source: `limit.go`, `loadSessionShellLimitConfig`. -/
def loadSessionShellLimitConfig (file : Option SessionShellFile) : Option LimitConfig := do
  let file ← file
  let maxTries ← file.maxTries
  let strUnlockSecs ← file.unlockSecs
  let intUnlockSecs ← intUnlockSecs strUnlockSecs
  return {
    type := .password
    unlockSecs := 0
    maxTries := maxTries
    dynamicLimit := true
    dynamicLimitUnlockSecs := intUnlockSecs }

/-! ## Loading the configuration -/

/-- The first element for the password is overwritten, or one is appended; a null element before it
panics. Source: `limit.go`, the first loop of `loadConfig`. -/
def updatePassword (passwordConfig : LimitConfig) :
    List (Option LimitConfig) → Option (List (Option LimitConfig))
  | [] => some [some passwordConfig]
  | none :: _ => none
  | some limitConfig :: limits =>
      if limitConfig.type = .password then some (some passwordConfig :: limits)
      else (updatePassword passwordConfig limits).map fun limits => some limitConfig :: limits

/-- The password limit of the session shell counts, where there is one.
Source: `limit.go`, `loadConfig`. -/
def useSessionShell (limits : List (Option LimitConfig)) (passwordConfig : Option LimitConfig) :
    Option (List (Option LimitConfig)) :=
  match passwordConfig with
  | none => some limits
  | some passwordConfig => updatePassword passwordConfig limits

/-- A negative `MaxTries` means no limit. Source: `limit.go`, the last loop of `loadConfig`. -/
def LimitConfig.fixMaxTries (limitConfig : LimitConfig) : LimitConfig :=
  if limitConfig.maxTries < 0 then { limitConfig with maxTries := 0 } else limitConfig

/-- `loadConfig`, of a file that decodes to `limits`; a null element panics. Source: `limit.go`. -/
def loadConfig (limits : List (Option LimitConfig)) (sessionShell : Option SessionShellFile) :
    Option (List (Option LimitConfig)) := do
  let limits ← useSessionShell limits (loadSessionShellLimitConfig sessionShell)
  limits.mapM fun limitConfig => limitConfig.map fun c => some c.fixMaxTries

/-- The elements of one type. -/
def ofType (limits : List (Option LimitConfig)) (t : AuthType) : List LimitConfig :=
  limits.reduceOption.filter fun c => c.type = t

/-- The element of a type that is in force: the last one, unless the session shell takes its
place. -/
def InForce (limits : List (Option LimitConfig)) (sessionShell : Option SessionShellFile)
    (t : AuthType) (c : LimitConfig) : Prop :=
  authTypeToFlag t ≠ 0 ∧ (ofType limits t).getLast? = some c ∧
    ¬ (t = .password ∧ (loadSessionShellLimitConfig sessionShell).isSome ∧
      (ofType limits t).length = 1)

/-- A dynamic limit with tries and without durations. -/
def LimitConfig.NoDurations (c : LimitConfig) : Prop :=
  c.dynamicLimit = true ∧ 0 < c.maxTries ∧ c.dynamicLimitUnlockSecs = []

/-! ## What the session shell gives -/

section mapM

variable {α β : Type} {f : α → Option β}

/-- A loop with a result at each element. -/
theorem mapM_eq_some_cons {a : α} {as : List α} {bs : List β} :
    (a :: as).mapM f = some bs ↔ ∃ b bs', f a = some b ∧ as.mapM f = some bs' ∧ bs = b :: bs' := by
  simp only [List.mapM_cons, Option.bind_eq_bind, Option.bind_eq_some_iff, Option.pure_def,
    Option.some.injEq]
  constructor
  · rintro ⟨b, hb, bs', hbs', rfl⟩
    exact ⟨b, bs', hb, hbs', rfl⟩
  · rintro ⟨b, bs', hb, hbs', rfl⟩
    exact ⟨b, hb, bs', hbs', rfl⟩

end mapM

/-- A text that can be read gives a duration. -/
theorem intUnlockSecs_ne_nil {str : List Char} {secs : List ℤ} (h : intUnlockSecs str = some secs) :
    secs ≠ [] := by
  obtain ⟨part, parts, hparts⟩ := List.exists_cons_of_ne_nil
    (List.splitOn_ne_nil ',' (str.filter (· ≠ '"')))
  unfold intUnlockSecs at h
  rw [hparts] at h
  obtain ⟨val, vals, -, -, rfl⟩ := mapM_eq_some_cons.mp h
  exact List.cons_ne_nil val vals

/-- **The password limit of the session shell** lists a duration. -/
theorem loadSessionShellLimitConfig_eq_some {file : Option SessionShellFile} {p : LimitConfig}
    (h : loadSessionShellLimitConfig file = some p) :
    p.type = .password ∧ p.dynamicLimitUnlockSecs ≠ [] := by
  simp only [loadSessionShellLimitConfig, Option.bind_eq_bind, Option.bind_eq_some_iff,
    Option.pure_def, Option.some.injEq] at h
  obtain ⟨file, -, maxTries, -, str, -, secs, hsecs, rfl⟩ := h
  exact ⟨rfl, intUnlockSecs_ne_nil hsecs⟩

/-! ## What is accepted -/

variable {limits config : List (Option LimitConfig)} {sessionShell : Option SessionShellFile}
  {p : LimitConfig}

/-- A negative `MaxTries` is no limit, and nothing else changes. -/
theorem fixMaxTries_same (c : LimitConfig) :
    c.fixMaxTries.type = c.type ∧ (c.fixMaxTries.NoDurations ↔ c.NoDurations) := by
  unfold LimitConfig.fixMaxTries LimitConfig.NoDurations
  split_ifs with h
  · refine ⟨rfl, ?_⟩
    dsimp only
    omega
  · exact ⟨rfl, Iff.rfl⟩

/-- The last loop panics at a null element. -/
theorem fixAll_eq_some :
    limits.mapM (fun limitConfig => limitConfig.map fun c => some c.fixMaxTries) = some config ↔
      none ∉ limits ∧ config = limits.map (Option.map LimitConfig.fixMaxTries) := by
  induction limits generalizing config with
  | nil =>
      simp [eq_comm]
  | cons limitConfig limits ih =>
      rw [mapM_eq_some_cons]
      rcases limitConfig with _ | c
      · simp
      · simp only [Option.map_some, Option.some.injEq, List.mem_cons, reduceCtorEq, false_or,
          List.map_cons, ih]
        constructor
        · rintro ⟨b, bs, rfl, ⟨hnone, rfl⟩, rfl⟩
          exact ⟨hnone, rfl⟩
        · rintro ⟨hnone, rfl⟩
          exact ⟨_, _, rfl, ⟨hnone, rfl⟩, rfl⟩

/-- Null elements after the first password stay where they are; before it they panic. -/
theorem none_mem_updatePassword :
    (∃ config, updatePassword p limits = some config ∧ none ∉ config) ↔ none ∉ limits := by
  induction limits with
  | nil => simp [updatePassword]
  | cons limitConfig limits ih =>
      rcases limitConfig with _ | c
      · simp [updatePassword]
      · unfold updatePassword
        split_ifs with hc
        · simp
        · simp only [Option.map_eq_some_iff, List.mem_cons, reduceCtorEq, false_or, ← ih]
          constructor
          · rintro ⟨config, ⟨rest, hrest, rfl⟩, hnone⟩
            exact ⟨rest, hrest, fun h => hnone (List.mem_cons_of_mem _ h)⟩
          · rintro ⟨rest, hrest, hnone⟩
            exact ⟨_, ⟨rest, hrest, rfl⟩, by simpa using hnone⟩

theorem none_mem_useSessionShell {passwordConfig : Option LimitConfig} :
    (∃ config, useSessionShell limits passwordConfig = some config ∧ none ∉ config) ↔
      none ∉ limits := by
  rcases passwordConfig with _ | p
  · simp [useSessionShell]
  · exact none_mem_updatePassword

/-- What is accepted: the limits with that of the session shell, fixed. -/
theorem loadConfig_eq_some :
    loadConfig limits sessionShell = some config ↔
      ∃ merged, useSessionShell limits (loadSessionShellLimitConfig sessionShell) = some merged ∧
        none ∉ merged ∧ config = merged.map (Option.map LimitConfig.fixMaxTries) := by
  simp only [loadConfig, Option.bind_eq_bind, Option.bind_eq_some_iff, fixAll_eq_some]

/-- **A null element** is not accepted: `loadConfig` panics itself. -/
theorem loadConfig_isSome_iff : (loadConfig limits sessionShell).isSome ↔ none ∉ limits := by
  rw [Option.isSome_iff_exists,
    ← @none_mem_useSessionShell limits (loadSessionShellLimitConfig sessionShell)]
  simp only [loadConfig_eq_some]
  constructor
  · rintro ⟨-, merged, hmerged, hnone, -⟩
    exact ⟨merged, hmerged, hnone⟩
  · rintro ⟨merged, hmerged, hnone⟩
    exact ⟨_, merged, hmerged, hnone, rfl⟩

/-! ## Which elements are in force -/

theorem ofType_cons (c : LimitConfig) (limits : List (Option LimitConfig)) (t : AuthType) :
    ofType (some c :: limits) t = if c.type = t then c :: ofType limits t else ofType limits t := by
  unfold ofType
  rw [List.reduceOption_cons_of_some, List.filter_cons]
  simp only [decide_eq_true_eq]

/-- Overwriting a password leaves the other types, and the later passwords. -/
theorem ofType_updatePassword (hp : p.type = .password)
    (h : updatePassword p limits = some config) (t : AuthType) :
    ofType config t =
      if t = .password then p :: (ofType limits t).tail else ofType limits t := by
  induction limits generalizing config with
  | nil =>
      cases h
      rw [ofType_cons, hp]
      split_ifs with h₁ h₂
      · rfl
      · exact absurd h₁.symm h₂
      · rename_i h₂
        exact absurd h₂.symm h₁
      · rfl
  | cons limitConfig limits ih =>
      rcases limitConfig with _ | c
      · cases h
      · unfold updatePassword at h
        split_ifs at h with hc
        · cases h
          rw [ofType_cons, ofType_cons, hp, hc]
          by_cases ht : t = .password
          · rw [ht, if_pos rfl, if_pos rfl, if_pos rfl, List.tail_cons]
          · rw [if_neg (Ne.symm ht), if_neg (Ne.symm ht), if_neg ht]
        · obtain ⟨rest, hrest, rfl⟩ := Option.map_eq_some_iff.mp h
          rw [ofType_cons, ofType_cons, ih hrest]
          by_cases ht : t = .password
          · rw [ht, if_neg hc, if_neg hc, if_pos rfl]
          · rw [if_neg ht, if_neg ht]

/-- Fixing the elements leaves their types. -/
theorem ofType_map_fix (limits : List (Option LimitConfig)) (t : AuthType) :
    ofType (limits.map (Option.map LimitConfig.fixMaxTries)) t =
      (ofType limits t).map LimitConfig.fixMaxTries := by
  induction limits with
  | nil => rfl
  | cons limitConfig limits ih =>
      rcases limitConfig with _ | c
      · exact ih
      · rw [List.map_cons, Option.map_some, ofType_cons, ofType_cons, ih, (fixMaxTries_same c).1]
        split_ifs
        · rfl
        · rfl

/-- The last element of a type, with the session shell. -/
theorem getLast?_useSessionShell {merged : List (Option LimitConfig)}
    (hmerged : useSessionShell limits (loadSessionShellLimitConfig sessionShell) = some merged)
    (t : AuthType) (hflag : authTypeToFlag t ≠ 0) :
    (∃ c, (ofType merged t).getLast? = some c ∧ c.NoDurations) ↔
      ∃ c, InForce limits sessionShell t c ∧ c.NoDurations := by
  unfold InForce
  rcases hshell : loadSessionShellLimitConfig sessionShell with _ | p <;> rw [hshell] at hmerged
  · cases hmerged
    simp [hflag]
  · obtain ⟨hp, hdurations⟩ := loadSessionShellLimitConfig_eq_some hshell
    rw [ofType_updatePassword hp hmerged]
    by_cases ht : t = .password
    · subst ht
      rw [if_pos rfl]
      -- the password of the session shell is the last one unless two were listed
      rcases hof : ofType limits .password with _ | ⟨c₁, _ | ⟨c₂, cs⟩⟩
      · simp [LimitConfig.NoDurations, hdurations]
      · simp [LimitConfig.NoDurations, hdurations]
      · simp [hflag]
    · rw [if_neg ht]
      simp [ht, hflag]

/-- **In force** in what is accepted are the elements that are in force in the file. -/
theorem exists_inForce (h : loadConfig limits sessionShell = some config) :
    (∃ t c, authTypeToFlag t ≠ 0 ∧ (ofType config t).getLast? = some c ∧ c.NoDurations) ↔
      ∃ t c, InForce limits sessionShell t c ∧ c.NoDurations := by
  obtain ⟨merged, hmerged, -, rfl⟩ := loadConfig_eq_some.mp h
  refine exists_congr ?_
  intro t
  have hfix : (∃ c, (ofType (merged.map (Option.map LimitConfig.fixMaxTries)) t).getLast? = some c ∧
      c.NoDurations) ↔ ∃ c, (ofType merged t).getLast? = some c ∧ c.NoDurations := by
    rw [ofType_map_fix, List.getLast?_map]
    simp only [Option.map_eq_some_iff]
    constructor
    · rintro ⟨_, ⟨c, hc, rfl⟩, hno⟩
      exact ⟨c, hc, (fixMaxTries_same c).2.mp hno⟩
    · rintro ⟨c, hc, hno⟩
      exact ⟨_, ⟨c, hc, rfl⟩, (fixMaxTries_same c).2.mpr hno⟩
  constructor
  · rintro ⟨c, hflag, hc, hno⟩
    exact (getLast?_useSessionShell hmerged t hflag).mp (hfix.mp ⟨c, hc, hno⟩)
  · rintro ⟨c, hforce, hno⟩
    obtain ⟨c', hc', hno'⟩ := hfix.mpr ((getLast?_useSessionShell hmerged t hforce.1).mpr
      ⟨c, hforce, hno⟩)
    exact ⟨c', hforce.1, hc', hno'⟩

/-- What is accepted has no negative `MaxTries`. -/
theorem maxTries_nonneg (h : loadConfig limits sessionShell = some config) {t : AuthType}
    {c : LimitConfig} (hc : c ∈ ofType config t) : 0 ≤ c.maxTries := by
  obtain ⟨merged, -, -, rfl⟩ := loadConfig_eq_some.mp h
  rw [ofType_map_fix] at hc
  obtain ⟨c, -, rfl⟩ := List.mem_map.mp hc
  unfold LimitConfig.fixMaxTries
  split_ifs with hneg
  · exact le_rfl
  · exact not_lt.mp hneg

/-! ## The limits of a new user -/

/-- The loop over the configuration leaves under a type its last element. -/
theorem lookup_addConfigs {ul ul' : UserLimits} (h : config.foldlM addConfig ul = some ul')
    (t : AuthType) :
    ul'.lookup t = if authTypeToFlag t = 0 then ul.lookup t
      else ((ofType config t).getLast?.map fun c => some (Limit.ofConfig c)).or (ul.lookup t) := by
  induction config generalizing ul with
  | nil =>
      cases h
      simp [ofType]
  | cons limitConfig config ih =>
      rw [List.foldlM_cons] at h
      obtain ⟨ul₁, h₁, h⟩ := Option.bind_eq_some_iff.mp h
      obtain ⟨c, rfl, rfl⟩ := Option.map_eq_some_iff.mp h₁
      rw [ih h, ofType_cons]
      by_cases hflag : authTypeToFlag t = 0
      · rw [if_pos hflag, if_pos hflag]
        split_ifs with hc
        · rfl
        · exact AList.lookup_insert_ne fun hne => hc (hne ▸ hflag)
      · rw [if_neg hflag, if_neg hflag]
        by_cases hc : c.type = t
        · subst hc
          rw [if_neg hflag, if_pos rfl, AList.lookup_insert, List.getLast?_cons]
          rcases (ofType config c.type).getLast? with _ | d
          · rfl
          · rfl
        · rw [if_neg hc]
          congr 1
          split_ifs
          · rfl
          · exact AList.lookup_insert_ne (Ne.symm hc)

theorem get_insert_self (ul : UserLimits) (t : AuthType) (o : Option Limit) :
    UserLimits.get (ul.insert t o) t = o := by
  rw [UserLimits.get, AList.lookup_insert]
  rfl

theorem get_insert_of_ne {t u : AuthType} (h : t ≠ u) (ul : UserLimits) (o : Option Limit) :
    UserLimits.get (ul.insert u o) t = ul.get t := by
  rw [UserLimits.get, AList.lookup_insert_ne h, UserLimits.get]

/-- A loop over defaults fills what is nil. -/
theorem lookup_addDefaults (ts : List AuthType) (ul : UserLimits) (t : AuthType) :
    (ts.foldl addDefault ul).lookup t =
      if t ∈ ts ∧ ul.get t = none then some (some (.unlimited t)) else ul.lookup t := by
  induction ts generalizing ul with
  | nil => simp
  | cons u ts ih =>
      rw [List.foldl_cons, ih, addDefault]
      by_cases hget : ul.get u = none
      · rw [if_pos hget]
        by_cases ht : t = u
        · subst ht
          rw [get_insert_self, AList.lookup_insert]
          simp [hget]
        · rw [get_insert_of_ne ht, AList.lookup_insert_ne ht]
          simp [ht]
      · rw [if_neg hget]
        by_cases ht : t = u
        · subst ht
          simp [hget]
        · simp [ht]

/-- The pointers that the first loop makes are nil. -/
theorem get_nils (t : AuthType) :
    UserLimits.get (allAuthTypes.foldl (fun ul t => ul.insert t none) ∅) t = none := by
  have hfold : ∀ (ts : List AuthType) (ul : UserLimits), ul.get t = none →
      UserLimits.get (ts.foldl (fun ul t => ul.insert t none) ul) t = none := by
    intro ts
    induction ts with
    | nil => exact fun ul hul => hul
    | cons u ts ih =>
        intro ul hul
        apply ih
        by_cases ht : t = u
        · rw [ht, get_insert_self]
        · rw [get_insert_of_ne ht, hul]
  exact hfold allAuthTypes ∅ rfl

/-- The limit of a new user that comes from the configuration. -/
theorem lookup_newUserLimits_of_last {base : UserLimits} (h : newUserLimits config = some base)
    {t : AuthType} {c : LimitConfig} (hflag : authTypeToFlag t ≠ 0)
    (hc : (ofType config t).getLast? = some c) :
    base.lookup t = some (some (.ofConfig c)) := by
  obtain ⟨ul, hul, rfl⟩ := Option.map_eq_some_iff.mp h
  have hlookup : ul.lookup t = some (some (.ofConfig c)) := by
    rw [lookup_addConfigs hul, if_neg hflag, hc]
    rfl
  rw [lookup_addDefaults, if_neg, hlookup]
  rintro ⟨-, hget⟩
  rw [UserLimits.get, hlookup] at hget
  cases hget

/-- **A new user's limits**: of the last element of a type, or no limit. -/
theorem lookup_newUserLimits {base : UserLimits} (h : newUserLimits config = some base)
    {t : AuthType} {l : Limit} (hl : base.lookup t = some (some l)) :
    t ∈ allAuthTypes ∧ l = .unlimited t ∨
      authTypeToFlag t ≠ 0 ∧ ∃ c, (ofType config t).getLast? = some c ∧ l = .ofConfig c := by
  obtain ⟨ul, hul, rfl⟩ := Option.map_eq_some_iff.mp h
  rw [lookup_addDefaults] at hl
  split_ifs at hl with hdefault
  · cases hl
    exact Or.inl ⟨hdefault.1, rfl⟩
  · have hnil := get_nils t
    rw [UserLimits.get] at hnil
    rw [lookup_addConfigs hul] at hl
    split_ifs at hl with hflag
    · rw [hl] at hnil
      cases hnil
    · rcases hlast : (ofType config t).getLast? with _ | c <;> rw [hlast] at hl
      · rw [Option.map_none, Option.none_or] at hl
        rw [hl] at hnil
        cases hnil
      · cases hl
        exact Or.inr ⟨hflag, c, rfl, rfl⟩

/-! ## Runs that do not panic -/

/-- The calls of a session on the limits, and the questions about them; not the loading of states
and the changes of the user list. -/
def LimitsCall.isOperation : LimitsCall → Bool
  | .table (.userListChanged _) => false
  | .table _ => true
  | .getLimits _ => true
  | .getLimitStates => true
  | _ => false

/-- No sequence of calls panics. -/
def NeverPanics (config : List (Option LimitConfig)) : Prop :=
  ∀ (order : StatesOrder) (calls : List (ℤ × LimitsCall)),
    (∀ c ∈ calls, c.2.isOperation = true) → (run (LimitTable.call config order) ∅ calls).isSome

/-- With durations to look up, a question has an answer. -/
theorem Limit.HasDurations.allow_isSome {l : Limit} (h : l.HasDurations) (now : ℤ) :
    (l.allow now).isSome := by
  by_cases hm : l.maxTries = 0
  · rw [allow, if_pos hm]
    rfl
  · exact allow_isSome_of_ne_nil (fun hd => h hd hm) now

/-- The limit of a type without configuration is never asked for a duration. -/
theorem hasDurations_unlimited (t : AuthType) : (Limit.unlimited t).HasDurations := by
  intro hd
  cases hd

section panics

variable {base ul : UserLimits} {m m' : LimitTable} {order : StatesOrder} {k : UserKey}
  {t : AuthType} {l l' : Limit}

/-- The limits of a user have the durations of a new user's. -/
theorem UserLimits.Rel.hasDurations (h : base.Rel Limit.SameConfig ul)
    (hbase : ∀ t l, base.lookup t = some (some l) → l.HasDurations)
    (hl : ul.lookup t = some (some l)) : l.HasDurations := by
  have hrel := h t
  rw [hl] at hrel
  rcases hb : base.lookup t with _ | _ | l₀ <;> rw [hb] at hrel
  · cases hrel
  · cases Option.rel_some_some.mp hrel
  · exact (hbase t l₀ hb).congr (Option.rel_some_some.mp (Option.rel_some_some.mp hrel))

/-- Each limit of a user can be asked. -/
theorem exportRounds_isSome {es : List (Σ _ : AuthType, Option Limit)} {now : ℤ}
    (hes : ∀ e ∈ es, ∃ l, e.2 = some l ∧ (l.allow now).isSome)
    (acc : UserLimits × List LimitForExport) : (es.foldlM (exportRound now) acc).isSome := by
  induction es generalizing acc with
  | nil => rfl
  | cons e es ih =>
      obtain ⟨⟨l, hl, hallow⟩, hes⟩ := List.forall_mem_cons.mp hes
      obtain ⟨r, hr⟩ := Option.isSome_iff_exists.mp hallow
      have hround : exportRound now acc e =
          some (acc.1.insert e.1 (some r.2), acc.2 ++ [r.2.forExport r.1]) := by
        rw [exportRound, hl, Option.bind_some, hr]
        rfl
      rw [List.foldlM_cons, hround]
      exact ih hes _

/-- **One call** does not panic, where every limit has durations. -/
theorem call_isSome (hconfig : newUserLimits config = some base)
    (hbase : ∀ t l, base.lookup t = some (some l) → l.HasDurations) (h : m.FromConfig base)
    (c : ℤ × LimitsCall) : (m.call config order c).isSome := by
  have hwf : m.WellFormed := h.wellFormed hconfig
  obtain ⟨now, c⟩ := c
  cases c with
  | table op =>
      unfold LimitTable.call
      rw [Option.isSome_map]
      cases op with
      | initLimitsByUsername k =>
          show (Option.map _ _).isSome
          rw [Option.isSome_map, LimitTable.initLimitsByUsername, hconfig]
          split_ifs
          · rfl
          · rfl
      | allow k t =>
          show (Option.map _ _).isSome
          rw [Option.isSome_map]
          unfold LimitTable.allow
          rcases hl : m.limit k t with _ | l
          · rfl
          · obtain ⟨ul, hul, hlookup⟩ := LimitTable.limit_eq_some_iff.mp hl
            dsimp only
            rw [Option.isSome_map]
            exact ((h k ul hul).hasDurations hbase hlookup).allow_isSome now
      | fail k t => rfl
      | success k t => rfl
      | resetLimits k =>
          show (Option.map _ _).isSome
          rw [Option.isSome_map]
          exact hwf.resetLimits_isSome k
      | userListChanged existUserList => rfl
  | getLimits k =>
      unfold LimitTable.call
      rw [Option.isSome_map]
      unfold LimitTable.getLimits
      rcases hk : m.lookup k with _ | ul
      · rfl
      · dsimp only
        rw [Option.isSome_map]
        apply exportRounds_isSome
        intro e he
        have hmem := (order.limits_ranges k ul).mem_iff.mp he
        obtain ⟨l, hl, -⟩ := (hwf k ul hk).keyed e.1 e.2 hmem
        rw [hl] at hmem
        exact ⟨l, hl, ((h k ul hk).hasDurations hbase hmem).allow_isSome now⟩
  | getLimitStates =>
      unfold LimitTable.call
      rw [Option.isSome_map]
      exact getLimitStates_isSome hwf order
  | loadStates k states => rfl
  | loadLimitStates states =>
      unfold LimitTable.call
      rw [Option.isSome_map]
      exact loadLimitStates_isSome (by rw [hconfig]; rfl) m states

/-- The first call about a user makes their limits. -/
theorem call_init_empty (hconfig : newUserLimits config = some base) :
    LimitTable.call config order ∅ (0, .table (.initLimitsByUsername k)) =
      some ((∅ : LimitTable).insert k base, .allowed none) := by
  have hnew : (∅ : LimitTable).initLimitsByUsername config k =
      some ((∅ : LimitTable).insert k base) := by
    rw [LimitTable.initLimitsByUsername, if_neg (by simp), hconfig]
    rfl
  show Option.map _ (Option.map _ (LimitTable.initLimitsByUsername config ∅ k)) = _
  rw [hnew]
  rfl

/-- The failures of one type of a user are those of its limit. -/
theorem run_failCalls {n : ℕ} {obs : List (Option (Bool × ℤ))} (hl : m.limit k t = some l)
    (hr : run Limit.step l (List.replicate n (0, .fail)) = some (l', obs)) :
    ∃ m' answers, run (LimitTable.call config order) m
      (List.replicate n (0, .table (.fail k t))) = some (m', answers) ∧ m'.limit k t = some l' := by
  induction n generalizing m l obs with
  | zero =>
      cases hr
      exact ⟨m, [], rfl, hl⟩
  | succ n ih =>
      rw [List.replicate_succ] at hr
      obtain ⟨l₁, o, os, hs, hr, -⟩ := run_cons_eq_some.mp hr
      cases hs
      have hset : (m.setLimit k t (l.fail 0)).limit k t = some (l.fail 0) := by
        rw [LimitTable.limit_setLimit hl, if_pos rfl]
      obtain ⟨m', answers, hrun, hlimit⟩ := ih hset hr
      have hcall : m.call config order (0, .table (.fail k t)) =
          some (m.setLimit k t (l.fail 0), .allowed none) := by
        show some ((m.fail k t 0).getD m, _) = _
        rw [LimitTable.fail, hl]
        rfl
      exact ⟨m', _, run_cons_eq_some.mpr ⟨_, _, _, hcall, hrun, rfl⟩, hlimit⟩

/-- A user of the table is asked about a limit that has no durations. -/
def panickingCalls (t : AuthType) (maxTries : ℕ) : List (ℤ × LimitsCall) :=
  (0, .table (.initLimitsByUsername (.Local, "uos"))) ::
    (List.replicate maxTries (0, .table (.fail (.Local, "uos") t)) ++
      [(0, .table (.allow (.Local, "uos") t))])

/-- **As many failures as there are tries**, and the next question panics. -/
theorem run_panickingCalls (hconfig : newUserLimits config = some base) {c : LimitConfig}
    (hc : c.NoDurations) (hl : base.lookup t = some (some (.ofConfig c))) :
    run (LimitTable.call config order) ∅ (panickingCalls t c.maxTries.toNat) = none := by
  obtain ⟨hd, hpos, hnil⟩ := hc
  have hm : c.maxTries ≠ 0 := by omega
  let k : UserKey := (.Local, "uos")
  let m : LimitTable := (∅ : LimitTable).insert k base
  have hlimit : m.limit k t = some (.ofConfig c) :=
    LimitTable.limit_eq_some_iff.mpr ⟨base, AList.lookup_insert _, hl⟩
  obtain ⟨l', obs, hrun, hsame, hfailures⟩ :=
    Limit.run_fails (l := .ofConfig c) hd hm c.maxTries.toNat
  obtain ⟨m', answers, hcalls, hlimit'⟩ :=
    @run_failCalls config m order _ _ _ _ _ _ hlimit hrun
  have hask : l'.allow 0 = none := by
    obtain ⟨-, -, hmax, hdyn, hdurs, -⟩ := hsame
    refine Limit.allow_eq_none (hdyn.trans hd) (fun h => hm (hmax.symm.trans h)) (hdurs.trans hnil)
      ?_ 0
    have hmax' : l'.maxTries = c.maxTries := hmax
    have hzero : (Limit.ofConfig c).numFailures = 0 := rfl
    rw [hmax', hfailures, hzero]
    omega
  rw [Option.eq_none_iff_forall_ne_some]
  rintro ⟨u, os⟩ h
  obtain ⟨m₁, o, os₁, hs, hr, -⟩ := run_cons_eq_some.mp h
  rw [call_init_empty hconfig, Option.some.injEq, Prod.mk.injEq] at hs
  obtain ⟨rfl, -⟩ := hs
  obtain ⟨m₂, os₂, os₃, hfails, hallow, -⟩ := run_append.mp hr
  rw [hcalls, Option.some.injEq, Prod.mk.injEq] at hfails
  obtain ⟨rfl, -⟩ := hfails
  obtain ⟨m₃, o', os₄, hs, -, -⟩ := run_cons_eq_some.mp hallow
  have hnone : m'.allow k t 0 = none := by
    unfold LimitTable.allow
    rw [hlimit']
    dsimp only
    rw [hask]
    rfl
  change Option.map _ (Option.map _ (m'.allow k t 0)) = _ at hs
  rw [hnone] at hs
  cases hs

/-- **Exactly the accepted configurations** in which no element that is in force is dynamic with
tries and without durations never panic; that a null element is not accepted is the first part. -/
theorem accepted_never_panics_iff (limits : List (Option LimitConfig))
    (sessionShell : Option SessionShellFile) :
    ((loadConfig limits sessionShell).isSome ↔ none ∉ limits) ∧
      ∀ config, loadConfig limits sessionShell = some config →
        (NeverPanics config ↔ ∀ t c, InForce limits sessionShell t c → ¬ c.NoDurations) := by
  refine ⟨loadConfig_isSome_iff, ?_⟩
  intro config hload
  have hnone : none ∉ config := by
    obtain ⟨merged, -, hmerged, rfl⟩ := loadConfig_eq_some.mp hload
    simpa using hmerged
  obtain ⟨base, hbase⟩ := Option.isSome_iff_exists.mp (newUserLimits_isSome hnone)
  constructor
  · intro hnever t c hforce hno
    obtain ⟨t, c, hflag, hlast, hno⟩ := (exists_inForce hload).mpr ⟨t, c, hforce, hno⟩
    have hpanic := @run_panickingCalls _ _ .listed _ hbase _ hno
      (lookup_newUserLimits_of_last hbase hflag hlast)
    have hsome := hnever .listed (panickingCalls t c.maxTries.toNat) (by
      intro call hcall
      simp only [panickingCalls, List.mem_cons, List.mem_append, List.mem_replicate,
        List.not_mem_nil, or_false] at hcall
      rcases hcall with rfl | ⟨-, rfl⟩ | rfl <;> rfl)
    rw [hpanic] at hsome
    cases hsome
  · intro hdurations order calls _
    have hlimits : ∀ t l, base.lookup t = some (some l) → l.HasDurations := by
      intro t l hl
      rcases lookup_newUserLimits hbase hl with ⟨-, rfl⟩ | ⟨hflag, c, hlast, rfl⟩
      · exact hasDurations_unlimited t
      · by_contra hno
        have hc : c.NoDurations := by
          simp only [Limit.HasDurations, not_forall, not_not] at hno
          obtain ⟨hd, hm, hnil⟩ := hno
          have hfixed : 0 ≤ c.maxTries := maxTries_nonneg hload (List.mem_of_getLast? hlast)
          exact ⟨hd, lt_of_le_of_ne hfixed (Ne.symm hm), hnil⟩
        obtain ⟨t', c', hforce, hno'⟩ := (exists_inForce hload).mp ⟨t, c, hflag, hlast, hc⟩
        exact hdurations t' c' hforce hno'
    refine run_isSome (P := fun _ => True) (I := fun m => m.FromConfig base) ?_
      fromConfig_empty (fun _ _ => trivial)
    intro m c hm _
    obtain ⟨⟨m', answer⟩, hcall⟩ := Option.isSome_iff_exists.mp
      (@call_isSome _ _ _ order hbase hlimits hm c)
    exact ⟨m', answer, hcall, call_fromConfig hbase hm hcall⟩

/-- A dynamic limit of one try for the face, without durations. -/
def faceWithoutDurations : List (Option LimitConfig) := [some ⟨.face, 0, 1, true, []⟩]

/-- **One failure, and the next question panics**: the file is accepted, and the second call after
the limits of a user have been made takes the last of no durations. -/
theorem accepted_config_panics :
    loadConfig faceWithoutDurations none = some faceWithoutDurations ∧
      run (LimitTable.call faceWithoutDurations .listed) ∅
        [(0, .table (.initLimitsByUsername (.Local, "uos"))),
          (0, .table (.fail (.Local, "uos") .face)),
          (0, .table (.allow (.Local, "uos") .face))] = none ∧
      ¬ NeverPanics faceWithoutDurations := by
  have hload : loadConfig faceWithoutDurations none = some faceWithoutDurations := by decide
  have hpanic : run (LimitTable.call faceWithoutDurations .listed) ∅
      (panickingCalls .face (LimitConfig.maxTries ⟨.face, 0, 1, true, []⟩).toNat) = none := by
    obtain ⟨base, hbase⟩ := Option.isSome_iff_exists.mp
      (newUserLimits_isSome (by decide : none ∉ faceWithoutDurations))
    exact run_panickingCalls hbase ⟨rfl, by decide, rfl⟩
      (lookup_newUserLimits_of_last hbase (by decide) (by decide))
  refine ⟨hload, hpanic, ?_⟩
  intro hnever
  have hsome := hnever .listed _ (by decide : ∀ c ∈ panickingCalls .face 1,
    c.2.isOperation = true)
  rw [show panickingCalls .face 1 = panickingCalls .face
    (LimitConfig.maxTries ⟨.face, 0, 1, true, []⟩).toNat from rfl, hpanic] at hsome
  cases hsome

end panics

end LingmoAuthenticate.Limits
