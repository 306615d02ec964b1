import LingmoAuthenticate.Limits.Table

/-!
# Snapshots of the table, user by user

* `lookup_getLimitStates`: a snapshot holds for each user the states of their limits, in the order
  in which the loop visited them; on a well-formed table `getLimitStates` does not panic.
* `lookup_loadLimitStates`: after loading, a user of the file has the limits they had (or those of
  a new user) with the states of the file put in, whatever the order of the loop.
* `lookup_loadStates`: which limit a list of states leaves under each type.
-/

namespace LingmoAuthenticate.Limits

open Lib AuthCommon

/-- Every user of the table has a limit of every type. -/
def LimitTable.WellFormed (m : LimitTable) : Prop :=
  ∀ k ul, m.lookup k = some ul → ul.WellFormed

/-- The states of the limits visited, in order. -/
def statesOf (es : List (Σ _ : AuthType, Option Limit)) : List LimitState :=
  es.filterMap fun e => e.2.map Limit.state

section visited

variable {ul : UserLimits} {es : List (Σ _ : AuthType, Option Limit)}

/-- A user with limits is visited. -/
theorem UserLimits.WellFormed.ne_nil (h : ul.WellFormed) (hes : ul.Ranges es) : es ≠ [] := by
  rintro rfl
  have hmem := hes.mem_keys_iff.mpr (h.complete .password (by decide))
  simp at hmem

/-- No visited entry is nil. -/
theorem UserLimits.WellFormed.visited_isSome (h : ul.WellFormed) (hes : ul.Ranges es) :
    ∀ e ∈ es, e.2.isSome := by
  intro e he
  obtain ⟨l, hl, -⟩ := h.keyed e.1 e.2 (hes.mem_iff.mp he)
  rw [hl]
  rfl

/-- The states of a user are filed under the types of the entries. -/
theorem UserLimits.WellFormed.mem_statesOf (h : ul.WellFormed) (hes : ul.Ranges es)
    {s : LimitState} :
    s ∈ statesOf es ↔ ∃ l, ul.lookup s.type = some (some l) ∧ s = l.state := by
  unfold statesOf
  simp only [List.mem_filterMap, Option.map_eq_some_iff]
  constructor
  · rintro ⟨⟨t, o⟩, he, l, rfl, rfl⟩
    have hl := hes.mem_iff.mp he
    obtain ⟨l', hl', ht, -⟩ := h.keyed t _ hl
    cases hl'
    exact ⟨l, by rw [Limit.state, ht]; exact hl, rfl⟩
  · rintro ⟨l, hl, hs⟩
    exact ⟨⟨s.type, some l⟩, hes.mem_iff.mpr hl, l, rfl, hs.symm⟩

/-- Each type is filed once. -/
theorem UserLimits.WellFormed.statesOf_nodup (h : ul.WellFormed) (hes : ul.Ranges es) :
    ((statesOf es).map LimitState.type).Nodup := by
  have htypes : (statesOf es).map LimitState.type = es.map Sigma.fst := by
    have hall : ∀ e ∈ es, ∃ l, e.2 = some l ∧ l.type0 = e.1 := fun e he => by
      obtain ⟨l, hl, ht, -⟩ := h.keyed e.1 e.2 (hes.mem_iff.mp he)
      exact ⟨l, hl, ht⟩
    unfold statesOf
    clear hes
    induction es with
    | nil => rfl
    | cons e es ih =>
        obtain ⟨l, hl, ht⟩ := hall e List.mem_cons_self
        rw [List.filterMap_cons_some (b := l.state) (by rw [hl]; rfl), List.map_cons,
          List.map_cons, ih fun e' he' => hall e' (List.mem_cons_of_mem _ he')]
        rw [show l.state.type = e.1 from ht]
  rw [htypes]
  exact hes.nodup

end visited

/-! ## Taking a snapshot -/

/-- The inner loop appends the states visited to those of its user. -/
theorem lookup_appendStates {k : UserKey} {es : List (Σ _ : AuthType, Option Limit)}
    {states states' : LimitStates} (h : es.foldlM (appendState k) states = some states') :
    states'.lookup k =
        (if es = [] then states.lookup k
          else some ((states.lookup k).getD [] ++ statesOf es)) ∧
      ∀ k', k' ≠ k → states'.lookup k' = states.lookup k' := by
  induction es generalizing states with
  | nil =>
      simp only [List.foldlM_nil, Option.pure_def, Option.some.injEq] at h
      subst h
      exact ⟨rfl, fun _ _ => rfl⟩
  | cons e es ih =>
      simp only [List.foldlM_cons, Option.bind_eq_bind, Option.bind_eq_some_iff] at h
      obtain ⟨states₁, h₁, h⟩ := h
      obtain ⟨ll, hll, rfl⟩ := Option.map_eq_some_iff.mp h₁
      obtain ⟨hself, hother⟩ := ih h
      rw [AList.lookup_insert] at hself
      have hcons : statesOf (e :: es) = ll.state :: statesOf es :=
        List.filterMap_cons_some (by rw [hll]; rfl)
      constructor
      · rw [hself, if_neg (List.cons_ne_nil e es), hcons]
        split_ifs with hes
        · rw [hes]
          rfl
        · rw [Option.getD_some, List.append_assoc]
          rfl
      · intro k' hk'
        rw [hother k' hk', AList.lookup_insert_ne hk']

/-- The inner loop does not panic where no entry is nil. -/
theorem appendStates_isSome {k : UserKey} {es : List (Σ _ : AuthType, Option Limit)}
    (hes : ∀ e ∈ es, e.2.isSome) (states : LimitStates) :
    (es.foldlM (appendState k) states).isSome := by
  induction es generalizing states with
  | nil => rfl
  | cons e es ih =>
      obtain ⟨ll, hll⟩ := Option.isSome_iff_exists.mp (hes e List.mem_cons_self)
      have hstep : appendState k states e =
          some (states.insert k ((states.lookup k).getD [] ++ [ll.state])) := by
        rw [appendState, hll]
        rfl
      rw [List.foldlM_cons, hstep]
      exact ih (fun e' he' => hes e' (List.mem_cons_of_mem _ he')) _

/-- **What a snapshot holds**: for each user the states of their limits. -/
theorem lookup_getLimitStates {order : StatesOrder} {m : LimitTable} {states : LimitStates}
    (hm : m.WellFormed) (h : m.getLimitStates order = some states) (k : UserKey) :
    states.lookup k = (m.lookup k).map fun ul => statesOf (order.limits k ul) := by
  obtain ⟨h₁, h₂⟩ := GoMap.lookup_foldlM (p := Sigma.fst)
    (f := fun states (e : Σ _ : UserKey, UserLimits) =>
      (order.limits e.1 e.2).foldlM (appendState e.1) states)
    (g := fun e o => if order.limits e.1 e.2 = [] then o
      else some (o.getD [] ++ statesOf (order.limits e.1 e.2)))
    (fun _ _ _ h => lookup_appendStates h) (order.users_ranges m).nodup h
  rcases hk : m.lookup k with _ | ul
  · rw [h₂ k]
    · rfl
    · rw [(order.users_ranges m).mem_keys_iff, hk]
      simp
  · have hmem := (order.users_ranges m).mem_iff.mpr hk
    rw [show k = (⟨k, ul⟩ : Σ _ : UserKey, UserLimits).1 from rfl, h₁ _ hmem,
      if_neg ((hm k ul hk).ne_nil (order.limits_ranges k ul))]
    rfl

/-- A snapshot of a well-formed table can be taken. -/
theorem getLimitStates_isSome {m : LimitTable} (hm : m.WellFormed) (order : StatesOrder) :
    (m.getLimitStates order).isSome := by
  have hfold : ∀ (es : List (Σ _ : UserKey, UserLimits)) (states : LimitStates),
      (∀ e ∈ es, m.lookup e.1 = some e.2) →
        (es.foldlM (fun states e => (order.limits e.1 e.2).foldlM (appendState e.1) states)
          states).isSome := by
    intro es
    induction es with
    | nil => exact fun _ _ => rfl
    | cons e es ih =>
        intro states hes
        have hwf := hm e.1 e.2 (hes e List.mem_cons_self)
        obtain ⟨states₁, h₁⟩ := Option.isSome_iff_exists.mp
          (appendStates_isSome (k := e.1)
            (hwf.visited_isSome (order.limits_ranges e.1 e.2)) states)
        rw [List.foldlM_cons, h₁]
        exact ih states₁ fun e' he' => hes e' (List.mem_cons_of_mem _ he')
  exact hfold _ ∅ fun e he => (order.users_ranges m).mem_iff.mp he

/-! ## Loading -/

/-- One state put into the limits of a user. -/
def UserLimits.loadState (ul : UserLimits) (state : LimitState) : UserLimits :=
  match ul.get state.type with
  | none => ul
  | some ll => ul.insert state.type (some (ll.load state))

/-- A list of states with distinct types is put in type by type. -/
theorem lookup_loadStates {states : List LimitState} (hnd : (states.map LimitState.type).Nodup)
    (ul : UserLimits) :
    (∀ s ∈ states, (states.foldl UserLimits.loadState ul).lookup s.type =
        (ul.lookup s.type).map (Option.map fun l => l.load s)) ∧
      ∀ t, t ∉ states.map LimitState.type →
        (states.foldl UserLimits.loadState ul).lookup t = ul.lookup t := by
  refine GoMap.lookup_foldl (g := fun s o => o.map (Option.map fun l : Limit => l.load s)) ?_ hnd ul
  intro ul s
  unfold UserLimits.loadState UserLimits.get
  rcases hl : ul.lookup s.type with _ | _ | l
  · exact ⟨hl, fun _ _ => rfl⟩
  · exact ⟨hl, fun _ _ => rfl⟩
  · exact ⟨AList.lookup_insert ul, fun t ht => AList.lookup_insert_ne ht⟩

/-- One round of the inner loop of `loadLimitStates` changes one user. -/
theorem lookup_loadState (k : UserKey) (s : LimitState) (m : LimitTable) (k' : UserKey) :
    (m.loadState k s).lookup k' =
      if k' = k then (m.lookup k).map fun ul => ul.loadState s else m.lookup k' := by
  have hself : k' = k → m.lookup k' = m.lookup k := fun h => h ▸ rfl
  unfold LimitTable.loadState UserLimits.loadState LimitTable.limit
  rcases hk : m.lookup k with _ | ul
  · rw [hk] at hself
    split_ifs with hkk
    · exact hself hkk
    · rfl
  · rw [Option.bind_some]
    rw [hk] at hself
    rcases hl : ul.get s.type with _ | l
    · split_ifs with hkk
      · simpa [hl] using hself hkk
      · rfl
    · simp only [LimitTable.lookup_setLimit, hk, Option.map_some, hl]

/-- The inner loop of `loadLimitStates` changes one user. -/
theorem lookup_loadUser (k : UserKey) (states : List LimitState) (m : LimitTable) (k' : UserKey) :
    (states.foldl (LimitTable.loadState k) m).lookup k' =
      if k' = k then (m.lookup k).map fun ul => states.foldl UserLimits.loadState ul
      else m.lookup k' := by
  induction states generalizing m with
  | nil =>
      split_ifs with hk
      · rw [hk, List.foldl_nil]
        simp
      · rfl
  | cons s states ih =>
      rw [List.foldl_cons, ih, lookup_loadState, lookup_loadState]
      by_cases hk : k' = k
      · simp [hk, Function.comp_def]
      · simp [hk]

/-- Making the limits of a user changes one user, and none that is there. -/
theorem lookup_initLimitsByUsername {config : List (Option LimitConfig)} {base : UserLimits}
    (hbase : newUserLimits config = some base) {m m' : LimitTable} {k : UserKey}
    (h : m.initLimitsByUsername config k = some m') :
    m'.lookup k = some ((m.lookup k).getD base) ∧ ∀ k', k' ≠ k → m'.lookup k' = m.lookup k' := by
  unfold LimitTable.initLimitsByUsername at h
  rcases hk : m.lookup k with _ | ul
  · rw [hk, hbase] at h
    cases h
    exact ⟨AList.lookup_insert m, fun k' hk' => AList.lookup_insert_ne hk'⟩
  · rw [hk] at h
    cases h
    exact ⟨hk, fun _ _ => rfl⟩

/-- One round of the outer loop of `loadLimitStates` changes one user. -/
theorem lookup_loadRound {config : List (Option LimitConfig)} {base : UserLimits}
    (hbase : newUserLimits config = some base) (m : LimitTable)
    (e : Σ _ : UserKey, List LimitState) (m' : LimitTable)
    (h : (m.initLimitsByUsername config e.1).map
      (fun m => e.2.foldl (LimitTable.loadState e.1) m) = some m') :
    m'.lookup e.1 = some (e.2.foldl UserLimits.loadState ((m.lookup e.1).getD base)) ∧
      ∀ k, k ≠ e.1 → m'.lookup k = m.lookup k := by
  obtain ⟨m₁, hm₁, rfl⟩ := Option.map_eq_some_iff.mp h
  obtain ⟨hself, hother⟩ := lookup_initLimitsByUsername hbase hm₁
  constructor
  · rw [lookup_loadUser, if_pos rfl, hself]
    rfl
  · intro k hk
    rw [lookup_loadUser, if_neg hk, hother k hk]

/-- **What loading makes of each user**, in whatever order the users are visited. -/
theorem lookup_loadLimitStates {config : List (Option LimitConfig)} {base : UserLimits}
    (hbase : newUserLimits config = some base) {m t : LimitTable} {states : LimitStates}
    {order : List (Σ _ : UserKey, List LimitState)} (horder : states.Ranges order)
    (h : m.loadLimitStates config order = some t) (k : UserKey) :
    t.lookup k =
      match states.lookup k with
      | some list => some (list.foldl UserLimits.loadState ((m.lookup k).getD base))
      | none => m.lookup k := by
  obtain ⟨h₁, h₂⟩ := GoMap.lookup_foldlM (p := Sigma.fst)
    (g := fun (e : Σ _ : UserKey, List LimitState) o =>
      some (e.2.foldl UserLimits.loadState (o.getD base)))
    (lookup_loadRound hbase) horder.nodup h
  rcases hk : states.lookup k with _ | list
  · refine h₂ k ?_
    rw [horder.mem_keys_iff, hk]
    simp
  · exact h₁ ⟨k, list⟩ (horder.mem_iff.mpr hk)

/-- Loading does not panic where the configuration can be read. -/
theorem loadLimitStates_isSome {config : List (Option LimitConfig)}
    (hbase : (newUserLimits config).isSome) (m : LimitTable)
    (order : List (Σ _ : UserKey, List LimitState)) :
    (m.loadLimitStates config order).isSome := by
  obtain ⟨base, hbase⟩ := Option.isSome_iff_exists.mp hbase
  unfold LimitTable.loadLimitStates
  induction order generalizing m with
  | nil => rfl
  | cons e order ih =>
      have hinit : (LimitTable.initLimitsByUsername config m e.1).isSome := by
        unfold LimitTable.initLimitsByUsername
        rw [hbase]
        split_ifs <;> rfl
      obtain ⟨m₁, hm₁⟩ := Option.isSome_iff_exists.mp hinit
      rw [List.foldlM_cons, hm₁]
      exact ih _

end LingmoAuthenticate.Limits
