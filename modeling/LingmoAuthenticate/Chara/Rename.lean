import LingmoAuthenticate.Chara.Records

/-!
# A renaming that fails: `CharaDataManager.ChangeCharaName`

The loop of a renaming writes the new name as soon as it comes to the old one, and looks for a
record that has the new name at the same time. What it then deletes are records of the old name.

* `renameLoop_ok`: where the loop comes to its end, it has met no record of the new name, and has
  renamed each record of the old name.
* `renameLoop_keeps`: what has the new name keeps it.
* `RenameClean`: the loop comes to an available record of the old name before any of the new name
  only if that is the only one, and nothing else has the new name.
* `rename_all_or_nothing_iff`: a renaming does what it says, or nothing, exactly there.
-/

namespace LingmoAuthenticate.Chara

open Lib

/-- A record of this user, type and name, available or not. -/
def Called (uuid : String) (charaType : CharaType) (name : String) (info : CharaInfo) : Prop :=
  info.uuid = uuid ∧ info.charaType = charaType ∧ info.charaName = name

instance (uuid : String) (charaType : CharaType) (name : String) (info : CharaInfo) :
    Decidable (Called uuid charaType name info) :=
  inferInstanceAs (Decidable (_ ∧ _ ∧ _))

namespace Records

/-! ## The loop -/

section loop

variable {uuid : String} {charaType : CharaType} {oldName newName : String}
  {es : List (Σ _ : String, ℕ)} {heap heap' : ℕ → CharaInfo} {charaInfo : Option ℕ}

/-- An available record of one of the two names. -/
def Met (uuid : String) (charaType : CharaType) (oldName newName : String) (info : CharaInfo) :
    Prop :=
  Named uuid charaType newName info ∨ Named uuid charaType oldName info

instance (uuid : String) (charaType : CharaType) (oldName newName : String) (info : CharaInfo) :
    Decidable (Met uuid charaType oldName newName info) :=
  inferInstanceAs (Decidable (_ ∨ _))

/-- What is neither of the old name nor of the new one is passed over. -/
theorem renameLoop_append {before : List (Σ _ : String, ℕ)}
    (h : ∀ x ∈ before, ¬ Met uuid charaType oldName newName (heap x.2)) :
    renameLoop uuid charaType oldName newName (before ++ es) heap charaInfo =
      renameLoop uuid charaType oldName newName es heap charaInfo := by
  induction before with
  | nil => rfl
  | cons x before ih =>
      obtain ⟨hx, hbefore⟩ := List.forall_mem_cons.mp h
      obtain ⟨hnew, hold⟩ := not_or.mp hx
      rw [List.cons_append, renameLoop, if_neg hnew, if_neg hold]
      exact ih hbefore

/-- A loop that meets nothing of either name. -/
theorem renameLoop_of_not_met
    (h : ∀ x ∈ es, ¬ Met uuid charaType oldName newName (heap x.2)) :
    renameLoop uuid charaType oldName newName es heap charaInfo = (heap, .ok charaInfo) := by
  have hgo := @renameLoop_append uuid charaType oldName newName [] heap charaInfo es h
  rw [List.append_nil] at hgo
  exact hgo

/-- What has the new name keeps it. -/
theorem renameLoop_keeps {p : ℕ} (h : Named uuid charaType newName (heap p)) :
    (renameLoop uuid charaType oldName newName es heap charaInfo).1 p = heap p := by
  induction es generalizing heap charaInfo with
  | nil => rfl
  | cons e es ih =>
      rw [renameLoop]
      split_ifs with hnew hold
      · rfl
      · -- the record that is renamed is another one
        have hne : p ≠ e.2 := by
          rintro rfl
          exact hnew h
        have hsame : Function.update heap e.2 { heap e.2 with charaName := newName } p = heap p :=
          Function.update_of_ne hne _ _
        rw [ih (by rwa [hsame]), hsame]
      · exact ih h

/-- **A loop that comes to its end** has met no record of the new name, and has renamed each record
of the old name. -/
theorem renameLoop_ok {r : Option ℕ}
    (h : renameLoop uuid charaType oldName newName es heap charaInfo = (heap', .ok r)) :
    ∀ x ∈ es, ¬ Named uuid charaType newName (heap x.2) ∧
      (Named uuid charaType oldName (heap x.2) → Named uuid charaType newName (heap' x.2)) := by
  induction es generalizing heap charaInfo with
  | nil => exact fun x hx => absurd hx List.not_mem_nil
  | cons e es ih =>
      rw [renameLoop] at h
      split_ifs at h with hnew hold
      · cases h
      · have hself : Named uuid charaType newName
            (Function.update heap e.2 { heap e.2 with charaName := newName } e.2) := by
          rw [Function.update_self]
          exact ⟨hold.1, hold.2.1, rfl, hold.2.2.2⟩
        have hkept := @renameLoop_keeps uuid charaType oldName newName es _ (some e.2) _ hself
        rw [h] at hkept
        have hdone : Named uuid charaType newName (heap' e.2) := by
          rw [show heap' e.2 = _ from hkept]
          exact hself
        refine List.forall_mem_cons.mpr ⟨⟨hnew, fun _ => hdone⟩, ?_⟩
        intro x hx
        obtain ⟨hx₁, hx₂⟩ := ih h x hx
        have hne : x.2 ≠ e.2 := fun heq => hx₁ (heq ▸ hself)
        rw [Function.update_of_ne hne] at hx₁ hx₂
        exact ⟨hx₁, hx₂⟩
      · exact List.forall_mem_cons.mpr ⟨⟨hnew, fun hn => absurd hn hold⟩, ih h⟩

/-- The first record of either name in a loop. -/
theorem exists_first_met (uuid : String) (charaType : CharaType) (oldName newName : String)
    (es : List (Σ _ : String, ℕ)) (heap : ℕ → CharaInfo) :
    (∀ x ∈ es, ¬ Met uuid charaType oldName newName (heap x.2)) ∨
      ∃ before e after, es = before ++ e :: after ∧
        Met uuid charaType oldName newName (heap e.2) ∧
          ∀ x ∈ before, ¬ Met uuid charaType oldName newName (heap x.2) := by
  rcases hfind : es.find? fun x => Met uuid charaType oldName newName (heap x.2) with _ | e
  · left
    intro x hx
    simpa using List.find?_eq_none.mp hfind x hx
  · obtain ⟨he, before, after, rfl, hbefore⟩ := List.find?_eq_some_iff_append.mp hfind
    refine .inr ⟨before, e, after, rfl, by simpa using he, ?_⟩
    intro x hx
    simpa using hbefore x hx

end loop

/-! ## All or nothing -/

/-- The available record of the old name has the new one, the other available records are as they
were, and no record of the new name is left that is not available. -/
structure Renamed (m m' : Records) (uuid : String) (charaType : CharaType)
    (oldName newName : String) : Prop where
  one : ∃ k p, m.charaInfoMap.lookup k = some p ∧ Named uuid charaType oldName (m.heap p) ∧
    m'.charaInfoMap.lookup k = some p ∧ m'.heap p = { m.heap p with charaName := newName } ∧
      ∀ k' p', k' ≠ k → m.charaInfoMap.lookup k' = some p' → (m.heap p').bAvailable = true →
        m'.charaInfoMap.lookup k' = some p' ∧ m'.heap p' = m.heap p'
  noneLeft : ∀ k p, m'.charaInfoMap.lookup k = some p →
    Called uuid charaType newName (m'.heap p) → (m'.heap p).bAvailable = true

/-- A renaming that fails changes nothing, and one that succeeds does what it says. -/
def RenamesOrNothing (m : Records) (order : Order) (uuid : String) (charaType : CharaType)
    (oldName newName : String) : Prop :=
  (∀ err, (m.changeCharaName order uuid charaType oldName newName).2 = some err →
    (m.changeCharaName order uuid charaType oldName newName).1 = m) ∧
  ((m.changeCharaName order uuid charaType oldName newName).2 = none →
    Renamed m (m.changeCharaName order uuid charaType oldName newName).1 uuid charaType oldName
      newName)

/-- Where the loop comes to an available record of the old name, and to none of the new name before
that, it is the only one, and no record of the user and type has the new name, available or not. -/
def RenameClean (m : Records) (order : Order) (uuid : String) (charaType : CharaType)
    (oldName newName : String) : Prop :=
  oldName ≠ newName → ∀ before e after, order.visit m.charaInfoMap = before ++ e :: after →
    Named uuid charaType oldName (m.heap e.2) →
      (∀ x ∈ before, ¬ Named uuid charaType newName (m.heap x.2)) →
        ∀ k p, m.charaInfoMap.lookup k = some p → k ≠ e.1 →
          ¬ Named uuid charaType oldName (m.heap p) ∧ ¬ Called uuid charaType newName (m.heap p)

section rename

variable {m : Records} {order : Order} {uuid : String} {charaType : CharaType}
  {oldName newName : String} {before after : List (Σ _ : String, ℕ)} {e : Σ _ : String, ℕ}

theorem Named.called {name : String} {info : CharaInfo} (h : Named uuid charaType name info) :
    Called uuid charaType name info := ⟨h.1, h.2.1, h.2.2.1⟩

/-- A record has one name. -/
theorem not_called_of_called {info : CharaInfo} (hne : oldName ≠ newName)
    (h : Called uuid charaType oldName info) : ¬ Called uuid charaType newName info :=
  fun h' => hne (h.2.2.symm.trans h'.2.2)

theorem not_named_of_named {info : CharaInfo} (hne : oldName ≠ newName)
    (h : Named uuid charaType oldName info) : ¬ Named uuid charaType newName info :=
  fun h' => not_called_of_called hne (Named.called h) (Named.called h')

/-- What the loop comes to later stands under another key. -/
theorem key_ne_of_visit (heq : order.visit m.charaInfoMap = before ++ e :: after)
    {x : Σ _ : String, ℕ} (hx : x ∈ after) : x.1 ≠ e.1 := by
  have hnd := (order.ranges m.charaInfoMap).nodup
  rw [heq, List.map_append, List.map_cons] at hnd
  intro h
  exact (List.nodup_cons.mp (List.nodup_append.mp hnd).2.1).1 (h ▸ List.mem_map_of_mem hx)

/-- A loop that ends with an error where nothing was renamed leaves the records as they were. -/
theorem renamesOrNothing_of_heap {r : Except String Unit}
    (h : renameLoop uuid charaType oldName newName (order.visit m.charaInfoMap) m.heap none =
      (m.heap, match r with
        | .error err => .error err
        | .ok _ => .ok none)) :
    m.RenamesOrNothing order uuid charaType oldName newName := by
  unfold RenamesOrNothing changeCharaName
  rw [h]
  rcases r with err | u
  · exact ⟨fun _ _ => rfl, fun hnone => by cases hnone⟩
  · exact ⟨fun _ _ => rfl, fun hnone => by cases hnone⟩

/-- The record that the loop comes to first is of the new name. -/
theorem renamesOrNothing_of_new (heq : order.visit m.charaInfoMap = before ++ e :: after)
    (hbefore : ∀ x ∈ before, ¬ Met uuid charaType oldName newName (m.heap x.2))
    (he : Named uuid charaType newName (m.heap e.2)) :
    m.RenamesOrNothing order uuid charaType oldName newName := by
  refine renamesOrNothing_of_heap (r := .error ("the new name of " ++ newName ++
    " had another chara ")) ?_
  rw [heq, renameLoop_append hbefore, renameLoop, if_pos he]

/-- No later record of the old name is the first of the two names. -/
theorem renameClean_of_new (heq : order.visit m.charaInfoMap = before ++ e :: after)
    (hbefore : ∀ x ∈ before, ¬ Met uuid charaType oldName newName (m.heap x.2))
    (he : Named uuid charaType newName (m.heap e.2)) :
    m.RenameClean order uuid charaType oldName newName := by
  intro hne before' e' after' heq' hold hfirst
  have hdiff : e' ≠ e := by
    rintro rfl
    exact not_named_of_named hne hold he
  rw [heq] at heq'
  rcases List.append_eq_append_iff.mp heq' with ⟨l, hl, htail⟩ | ⟨l, hl, htail⟩
  · rcases l with _ | ⟨x, l⟩
    · rw [List.nil_append, List.cons.injEq] at htail
      exact absurd htail.1.symm hdiff
    · rw [List.cons_append, List.cons.injEq] at htail
      refine absurd he (hfirst e ?_)
      rw [hl, htail.1]
      simp
  · rcases l with _ | ⟨x, l⟩
    · rw [List.nil_append, List.cons.injEq] at htail
      exact absurd htail.1 hdiff
    · rw [List.cons_append, List.cons.injEq] at htail
      refine absurd (.inr hold) (hbefore e' ?_)
      rw [hl, htail.1]
      simp

/-- The heap after the first record of the old name was renamed. -/
def renamedHeap (m : Records) (newName : String) (p : ℕ) : ℕ → CharaInfo :=
  Function.update m.heap p { m.heap p with charaName := newName }

theorem renamedHeap_self (p : ℕ) :
    m.renamedHeap newName p p = { m.heap p with charaName := newName } := Function.update_self ..

theorem renamedHeap_other {p q : ℕ} (h : q ≠ p) : m.renamedHeap newName p q = m.heap q :=
  Function.update_of_ne h ..

/-- The record that was renamed has the new name. -/
theorem named_renamedHeap {p : ℕ} (h : Named uuid charaType oldName (m.heap p)) :
    Named uuid charaType newName (m.renamedHeap newName p p) := by
  rw [renamedHeap_self]
  exact ⟨h.1, h.2.1, rfl, h.2.2.2⟩

/-- The loop comes to its first record, which is of the old name, and renames it. -/
theorem renameLoop_first (hne : oldName ≠ newName)
    (heq : order.visit m.charaInfoMap = before ++ e :: after)
    (hbefore : ∀ x ∈ before, ¬ Met uuid charaType oldName newName (m.heap x.2))
    (hold : Named uuid charaType oldName (m.heap e.2)) :
    renameLoop uuid charaType oldName newName (order.visit m.charaInfoMap) m.heap none =
      renameLoop uuid charaType oldName newName after (m.renamedHeap newName e.2) (some e.2) := by
  rw [heq, renameLoop_append hbefore, renameLoop, if_neg (not_named_of_named hne hold), if_pos hold]
  rfl

/-- Where the loop meets no other record, what stands under another key is another record, of
neither name. -/
theorem other_of_quiet (heq : order.visit m.charaInfoMap = before ++ e :: after)
    (hbefore : ∀ x ∈ before, ¬ Met uuid charaType oldName newName (m.heap x.2))
    (hold : Named uuid charaType oldName (m.heap e.2))
    (hafter : ∀ x ∈ after,
      ¬ Met uuid charaType oldName newName (m.renamedHeap newName e.2 x.2))
    {k : String} {p : ℕ} (hk : m.charaInfoMap.lookup k = some p) (hke : k ≠ e.1) :
    p ≠ e.2 ∧ ¬ Met uuid charaType oldName newName (m.heap p) := by
  have hmem : (⟨k, p⟩ : Σ _ : String, ℕ) ∈ before ++ e :: after := by
    rw [← heq]
    exact (order.ranges m.charaInfoMap).mem_iff.mpr hk
  rcases List.mem_append.mp hmem with hmem | hmem
  · refine ⟨?_, hbefore _ hmem⟩
    rintro rfl
    exact hbefore _ hmem (.inr hold)
  · rcases List.mem_cons.mp hmem with hmem | hmem
    · exact absurd (congrArg Sigma.fst hmem) hke
    · have hp : p ≠ e.2 := by
        rintro rfl
        exact hafter _ hmem (.inl (named_renamedHeap hold))
      have hquiet := hafter _ hmem
      rw [renamedHeap_other hp] at hquiet
      exact ⟨hp, hquiet⟩

/-- What a renaming comes to whose loop meets no other record. -/
theorem changeCharaName_of_quiet (hne : oldName ≠ newName)
    (heq : order.visit m.charaInfoMap = before ++ e :: after)
    (hbefore : ∀ x ∈ before, ¬ Met uuid charaType oldName newName (m.heap x.2))
    (hold : Named uuid charaType oldName (m.heap e.2))
    (hafter : ∀ x ∈ after,
      ¬ Met uuid charaType oldName newName (m.renamedHeap newName e.2 x.2)) :
    m.changeCharaName order uuid charaType oldName newName =
      ({ heap := m.renamedHeap newName e.2
         charaInfoMap := m.charaInfoMap.keep fun _ val =>
          ¬ ((m.renamedHeap newName e.2 val).charaName = oldName ∧
            (m.renamedHeap newName e.2 val).uuid = uuid ∧
            (m.renamedHeap newName e.2 val).charaType = charaType ∧
            ¬ (m.renamedHeap newName e.2 val).bAvailable ∧
            (m.renamedHeap newName e.2 e.2).chara ≠ (m.renamedHeap newName e.2 val).chara) },
        none) := by
  unfold changeCharaName
  rw [renameLoop_first hne heq hbefore hold, renameLoop_of_not_met hafter]

/-- The first record of the two names is of the old name, and the loop meets no other one. -/
theorem renamesOrNothing_iff_of_quiet (hne : oldName ≠ newName)
    (heq : order.visit m.charaInfoMap = before ++ e :: after)
    (hbefore : ∀ x ∈ before, ¬ Met uuid charaType oldName newName (m.heap x.2))
    (hold : Named uuid charaType oldName (m.heap e.2))
    (hafter : ∀ x ∈ after,
      ¬ Met uuid charaType oldName newName (m.renamedHeap newName e.2 x.2)) :
    m.RenamesOrNothing order uuid charaType oldName newName ↔
      m.RenameClean order uuid charaType oldName newName := by
  have hkey := lookup_of_visit heq (List.mem_append_right before (List.mem_cons_self ..))
  have hother := @other_of_quiet m order uuid charaType oldName newName before after e heq hbefore
    hold hafter
  unfold RenamesOrNothing
  rw [changeCharaName_of_quiet hne heq hbefore hold hafter]
  simp only [reduceCtorEq, false_implies, implies_true, true_and, forall_const]
  constructor
  · rintro ⟨-, hleft⟩ - before' e' after' heq' hold' - k p hk hke
    have hsame : e'.1 = e.1 := by
      by_contra hdiff
      have hkey' := lookup_of_visit heq' (List.mem_append_right before' (List.mem_cons_self ..))
      exact (hother hkey' hdiff).2 (.inr hold')
    rw [hsame] at hke
    obtain ⟨hp, hquiet⟩ := hother hk hke
    obtain ⟨hquiet₁, hquiet₂⟩ := not_or.mp hquiet
    refine ⟨hquiet₂, fun hcalled => ?_⟩
    have hleft' := hleft k p
    dsimp only at hleft'
    rw [GoMap.lookup_keep_eq_some, renamedHeap_other hp] at hleft'
    -- a record of the new name is not among those that are deleted
    have havail := hleft' ⟨hk, by
      rw [decide_eq_true_eq]
      exact fun h => hne (h.1.symm.trans hcalled.2.2)⟩ hcalled
    exact hquiet₁ ⟨hcalled.1, hcalled.2.1, hcalled.2.2, havail⟩
  · intro hclean
    have hnone := hclean hne before e after heq hold
      (fun x hx hn => hbefore x hx (.inl hn))
    refine ⟨⟨e.1, e.2, hkey, hold, ?_, renamedHeap_self _, ?_⟩, ?_⟩
    · rw [GoMap.lookup_keep_eq_some, decide_eq_true_eq]
      refine ⟨hkey, fun h => hne ?_⟩
      rw [renamedHeap_self] at h
      exact h.1.symm
    · intro k' p' hk' hk havail
      obtain ⟨hp, -⟩ := hother hk hk'
      dsimp only
      rw [GoMap.lookup_keep_eq_some, decide_eq_true_eq, renamedHeap_other hp]
      exact ⟨⟨hk, fun h => h.2.2.2.1 havail⟩, rfl⟩
    · intro k p hk hcalled
      dsimp only at hk hcalled ⊢
      obtain ⟨hk, -⟩ := GoMap.lookup_keep_eq_some.mp hk
      by_cases hke : k = e.1
      · obtain rfl : p = e.2 := Option.some.inj (hk.symm.trans (hke ▸ hkey))
        exact (named_renamedHeap hold).2.2.2
      · rw [renamedHeap_other (hother hk hke).1] at hcalled
        exact absurd hcalled (hnone k p hk hke).2

/-- What the loop leaves alone has the name that it had. -/
theorem named_of_kept {name : String} {info info' : CharaInfo} (h : info' = info)
    (hinfo : Named uuid charaType name info) : Named uuid charaType name info' := h ▸ hinfo

/-- The first record of the two names is of the old name, and the loop meets another one of either
name after that. -/
theorem not_renamesOrNothing_of_met (hne : oldName ≠ newName)
    (heq : order.visit m.charaInfoMap = before ++ e :: after)
    (hbefore : ∀ x ∈ before, ¬ Met uuid charaType oldName newName (m.heap x.2))
    (hold : Named uuid charaType oldName (m.heap e.2)) {x : Σ _ : String, ℕ} (hx : x ∈ after)
    (hmet : Met uuid charaType oldName newName (m.renamedHeap newName e.2 x.2)) :
    ¬ m.RenamesOrNothing order uuid charaType oldName newName := by
  have hnew := not_named_of_named hne hold
  have hdone : Named uuid charaType newName (m.renamedHeap newName e.2 e.2) :=
    named_renamedHeap hold
  have hkept := @renameLoop_keeps uuid charaType oldName newName after _ (some e.2) _ hdone
  unfold RenamesOrNothing changeCharaName
  rw [renameLoop_first hne heq hbefore hold]
  rcases hresult : renameLoop uuid charaType oldName newName after (m.renamedHeap newName e.2)
    (some e.2) with ⟨heap', err | r⟩
  · -- an error, after the first record was renamed
    rw [hresult] at hkept
    rintro ⟨hsame, -⟩
    have hheap : heap' = m.heap := congrArg Records.heap (hsame _ rfl)
    exact hnew (hheap ▸ named_of_kept hkept hdone)
  · rw [hresult] at hkept
    have hdone' : Named uuid charaType newName (heap' e.2) := named_of_kept hkept hdone
    obtain ⟨hx₁, hx₂⟩ := renameLoop_ok hresult x hx
    have hxold := hmet.resolve_left hx₁
    have hxe : x.2 ≠ e.2 := fun h => hx₁ (h ▸ hdone)
    rw [renamedHeap_other hxe] at hxold
    have hxnew := hx₂ (by rwa [renamedHeap_other hxe])
    have hkey := lookup_of_visit heq (List.mem_append_right before (List.mem_cons_self ..))
    have hxkey := lookup_of_visit heq
      (List.mem_append_right before (List.mem_cons_of_mem e hx))
    have hkeys := key_ne_of_visit heq hx
    -- two records have changed their name
    have htwo : ∀ m' : Records, m'.heap = heap' →
        ¬ Renamed m m' uuid charaType oldName newName := by
      rintro m' hm' ⟨⟨k, p, -, -, -, -, hrest⟩, -⟩
      by_cases hk : e.1 = k
      · have hsame := (hrest x.1 x.2 (hk ▸ hkeys) hxkey hxold.2.2.2).2
        rw [hm'] at hsame
        rw [hsame] at hxnew
        exact not_named_of_named hne hxold hxnew
      · have hsame := (hrest e.1 e.2 hk hkey hold.2.2.2).2
        rw [hm'] at hsame
        rw [hsame] at hdone'
        exact hnew hdone'
    rcases r with _ | charaInfo
    · rintro ⟨hsame, -⟩
      have hheap : heap' = m.heap := congrArg Records.heap (hsame _ rfl)
      exact hnew (hheap ▸ hdone')
    · rintro ⟨-, hrenamed⟩
      exact htwo _ rfl (hrenamed rfl)

/-- The other record of either name is one too many. -/
theorem not_renameClean_of_met (hne : oldName ≠ newName)
    (heq : order.visit m.charaInfoMap = before ++ e :: after)
    (hbefore : ∀ x ∈ before, ¬ Met uuid charaType oldName newName (m.heap x.2))
    (hold : Named uuid charaType oldName (m.heap e.2)) {x : Σ _ : String, ℕ} (hx : x ∈ after)
    (hmet : Met uuid charaType oldName newName (m.renamedHeap newName e.2 x.2)) :
    ¬ m.RenameClean order uuid charaType oldName newName := by
  intro hclean
  have hxkey := lookup_of_visit heq
    (List.mem_append_right before (List.mem_cons_of_mem e hx))
  obtain ⟨hnold, hncalled⟩ := hclean hne before e after heq hold
    (fun y hy hn => hbefore y hy (.inl hn)) x.1 x.2 hxkey (key_ne_of_visit heq hx)
  by_cases hxe : x.2 = e.2
  · exact hnold (hxe ▸ hold)
  · rw [renamedHeap_other hxe] at hmet
    rcases hmet with hmet | hmet
    · exact hncalled (Named.called hmet)
    · exact hnold hmet

/-- **A renaming does what it says, or nothing,** exactly where the loop comes to an available
record of the old name before any of the new name only if that is the only one, and no other record
of the user and type has the new name. -/
theorem rename_all_or_nothing_iff (m : Records) (order : Order) (uuid : String)
    (charaType : CharaType) (oldName newName : String) :
    m.RenamesOrNothing order uuid charaType oldName newName ↔
      m.RenameClean order uuid charaType oldName newName := by
  rcases exists_first_met uuid charaType oldName newName (order.visit m.charaInfoMap) m.heap with
    hnone | ⟨before, e, after, heq, hmet, hbefore⟩
  · refine iff_of_true (renamesOrNothing_of_heap (r := .ok ()) (renameLoop_of_not_met hnone)) ?_
    intro _ before e after heq hold
    refine absurd (.inr hold) (hnone e ?_)
    rw [heq]
    simp
  · by_cases hnew : Named uuid charaType newName (m.heap e.2)
    · exact iff_of_true (renamesOrNothing_of_new heq hbefore hnew)
        (renameClean_of_new heq hbefore hnew)
    · have hold := hmet.resolve_left hnew
      have hne : oldName ≠ newName := by
        rintro rfl
        exact hnew hold
      by_cases hafter : ∀ x ∈ after,
          ¬ Met uuid charaType oldName newName (m.renamedHeap newName e.2 x.2)
      · exact renamesOrNothing_iff_of_quiet hne heq hbefore hold hafter
      · push Not at hafter
        obtain ⟨x, hx, hxmet⟩ := hafter
        exact iff_of_false (not_renamesOrNothing_of_met hne heq hbefore hold hx hxmet)
          (not_renameClean_of_met hne heq hbefore hold hx hxmet)

end rename

/-- Two available records of one user and type, under two names. -/
def twoNames : Records :=
  ⟨fun p => ⟨"com.lingmo.face", "1000", 4, if p = 0 then "me" else "you",
      if p = 0 then "c1" else "c2", true, 0⟩,
    (AList.singleton "c2" 1).insert "c1" 0⟩

/-- The loop comes to the record of the old name, renames it, and then finds the new name taken. -/
theorem rename_half_done :
    ¬ ∀ (m : Records) (order : Order) (uuid : String) (charaType : CharaType)
      (oldName newName : String), m.RenamesOrNothing order uuid charaType oldName newName := by
  intro hall
  have h := (hall twoNames (.listed _ _) "1000" 4 "me" "you").1 _ rfl
  have hname := congrArg (fun m : Records => (m.heap 0).charaName) h
  exact absurd hname (by decide)

end Records

end LingmoAuthenticate.Chara
