import Mathlib.Data.List.Perm.Basic
import LingmoAuthenticate.Lib.GoMap

/-!
# The names of the fingers: `fprintd_device.go`, `FingerNameConfig`

`fprintd` knows a finger by its standard name only. The names that the user gives are kept in a file
for the user: the standard names in the order in which they came, and a map from these to the names.
The two are changed by operations of their own.

* `FingerNameConfig.WellFormed`: the list is duplicate-free, and its names are the keys of the map.
* `getFingerNames_eq`: on such a config, the names of the fingers that are mapped, and the fingers
  that are not, which are added as they are.
* `finger_map_represents`: every sequence of operations keeps list and map in step, and then
  `getFingerNames` gives one name for each finger and changes no mapping, nor anything the second
  time.
-/

namespace LingmoAuthenticate.Fingerprint

open Lib Lib.GoMap

/-- The names that a user has given the fingers: the standard names in the order of their enrolment,
and for each of them the name given. Source: `fprintd_device.go`, `FingerNameConfig`, its `data`. -/
structure FingerNameConfig where
  StdNames : List String
  FingerMap : GoMap String String

namespace FingerNameConfig

/-- What there is where no file is. -/
def empty : FingerNameConfig := ⟨[], ∅⟩

/-! ## The operations -/

/-- Source: `FingerNameConfig.isFingerExists`. -/
def isFingerExists (f : FingerNameConfig) (fingerName : String) : Bool :=
  f.FingerMap.entries.any fun e => e.2 = fingerName

/-- The first finger that the loop comes to. Source: `FingerNameConfig.getStdName`. -/
def getStdName (order : RangeOrder String String) (f : FingerNameConfig) (fingerName : String) :
    String :=
  match (order.visit f.FingerMap).find? fun e => e.2 = fingerName with
  | some e => e.1
  | none => ""

/-- Source: `FingerNameConfig.setWithoutSave`. -/
def setWithoutSave (f : FingerNameConfig) (stdName fingerName : String) : FingerNameConfig where
  StdNames := if stdName ∈ f.FingerMap then f.StdNames else f.StdNames ++ [stdName]
  FingerMap := f.FingerMap.insert stdName fingerName

/-- `copy(xs[i:], xs[i+1:])`, then the last is cleared, and cut off. -/
def removeInPlace (xs : List String) (i : ℕ) : List String :=
  let copied := xs.take i ++ xs.drop (i + 1) ++ xs.drop (xs.length - 1)
  (copied.set (xs.length - 1) "").take (xs.length - 1)

/-- Source: `FingerNameConfig.delete`. -/
def delete (f : FingerNameConfig) (stdName : String) : FingerNameConfig :=
  match f.StdNames.findIdx? fun v => v = stdName with
  | none => f
  | some i => ⟨removeInPlace f.StdNames i, f.FingerMap.erase stdName⟩

/-- Source: `FingerNameConfig.rename`. -/
def rename (order : RangeOrder String String) (f : FingerNameConfig) (origName newName : String) :
    Except String FingerNameConfig :=
  let i := f.getStdName order origName
  if i = "" then .error "finger name not exists"
  else .ok { f with FingerMap := f.FingerMap.insert i newName }

/-- Source: `FingerNameConfig.clear`. -/
def clear (_f : FingerNameConfig) : FingerNameConfig := empty

/-- The first loop of `getFingerNames`; a key that is missing reads as the empty name. -/
def mappedNames (f : FingerNameConfig) (stdNames : List String) : List String :=
  (f.StdNames.filter fun v => v ∈ stdNames).map fun v => (f.FingerMap.lookup v).getD ""

/-- A round of the second loop of `getFingerNames`. -/
def addMissing (r : List String × FingerNameConfig) (v : String) :
    List String × FingerNameConfig :=
  if v ∈ r.2.StdNames then r else (r.1 ++ [v], r.2.setWithoutSave v v)

/-- Source: `FingerNameConfig.getFingerNames`. -/
def getFingerNames (f : FingerNameConfig) (stdNames : List String) :
    List String × FingerNameConfig :=
  let res := f.mappedNames stdNames
  if stdNames.length = res.length then (res, f) else stdNames.foldl addMissing (res, f)

/-- What may be done to a config: the operations of the device on it, the last with the standard
names that the driver lists. -/
inductive NameOp where
  | set (stdName fingerName : String)
  | delete (stdName : String)
  | rename (order : RangeOrder String String) (origName newName : String)
  | clear
  | getFingerNames (stdNames : List String)

/-- The config after an operation; a renaming that fails leaves it. -/
def apply (f : FingerNameConfig) : NameOp → FingerNameConfig
  | .set stdName fingerName => f.setWithoutSave stdName fingerName
  | .delete stdName => f.delete stdName
  | .rename order origName newName => (f.rename order origName newName).toOption.getD f
  | .clear => f.clear
  | .getFingerNames stdNames => (f.getFingerNames stdNames).2

/-! ## What is to hold -/

/-- **List and map are in step**: each standard name is listed once, and exactly those with an entry
in the map are. -/
structure WellFormed (f : FingerNameConfig) : Prop where
  nodup : f.StdNames.Nodup
  mem_iff : ∀ v, v ∈ f.StdNames ↔ v ∈ f.FingerMap

/-- The name that a finger is listed under: the mapped one, or its own. -/
def nameOf (f : FingerNameConfig) (v : String) : String := (f.FingerMap.lookup v).getD v

/-- **What `getFingerNames` is to do**: one name for each finger, the mappings as they were, and
nothing more the second time. -/
structure Reconciles (f : FingerNameConfig) (stdNames : List String) : Prop where
  one_each : (f.getFingerNames stdNames).1.Perm (stdNames.map f.nameOf)
  kept : ∀ v name, f.FingerMap.lookup v = some name →
    (f.getFingerNames stdNames).2.FingerMap.lookup v = some name
  again : (f.getFingerNames stdNames).2.getFingerNames stdNames = f.getFingerNames stdNames

variable {f : FingerNameConfig} {stdNames : List String}

/-! ## The operations keep list and map in step -/

/-- What is removed in place is the element at the index. -/
theorem removeInPlace_eq {xs : List String} {i : ℕ} (h : i < xs.length) :
    removeInPlace xs i = xs.eraseIdx i := by
  have hlen : (xs.take i ++ xs.drop (i + 1)).length = xs.length - 1 := by
    rw [List.length_append, List.length_take, List.length_drop]
    omega
  unfold removeInPlace
  dsimp only
  rw [List.take_set_of_le le_rfl, ← hlen, List.take_left, List.eraseIdx_eq_take_drop_succ]

/-- **What a deletion comes to.** -/
theorem delete_eq (h : f.WellFormed) (v : String) :
    f.delete v = ⟨f.StdNames.erase v, f.FingerMap.erase v⟩ ∨
      v ∉ f.StdNames ∧ f.delete v = f := by
  unfold delete
  rcases hfound : f.StdNames.findIdx? (fun w => w = v) with _ | i
  · refine Or.inr ⟨fun hmem => ?_, rfl⟩
    rw [List.findIdx?_eq_none_iff] at hfound
    simpa using hfound v hmem
  · refine Or.inl ?_
    obtain ⟨hi, hv, -⟩ := List.findIdx?_eq_some_iff_getElem.mp hfound
    simp only [decide_eq_true_eq] at hv
    dsimp only
    rw [removeInPlace_eq hi, ← hv, List.Nodup.erase_getElem h.nodup]

theorem wellFormed_empty : empty.WellFormed where
  nodup := List.nodup_nil
  mem_iff v := by simp [empty]

theorem WellFormed.setWithoutSave (h : f.WellFormed) (v name : String) :
    (f.setWithoutSave v name).WellFormed := by
  unfold FingerNameConfig.setWithoutSave
  by_cases hv : v ∈ f.FingerMap
  · rw [if_pos hv]
    refine ⟨h.nodup, fun w => ?_⟩
    rw [AList.mem_insert, h.mem_iff]
    constructor
    · exact Or.inr
    · rintro (rfl | hw)
      · exact hv
      · exact hw
  · rw [if_neg hv]
    constructor
    · have hnew : v ∉ f.StdNames := fun hmem => hv ((h.mem_iff v).mp hmem)
      simpa [List.nodup_append] using ⟨h.nodup, fun w hw heq => hnew (heq ▸ hw)⟩
    · intro w
      rw [List.mem_append, List.mem_singleton, AList.mem_insert, h.mem_iff, or_comm]

theorem WellFormed.delete (h : f.WellFormed) (v : String) : (f.delete v).WellFormed := by
  obtain heq | ⟨-, heq⟩ := delete_eq h v
  · rw [heq]
    refine ⟨h.nodup.erase v, fun w => ?_⟩
    rw [List.Nodup.mem_erase_iff h.nodup, AList.mem_erase, h.mem_iff]
  · rw [heq]
    exact h

/-- The finger that a name is found at. -/
theorem getStdName_eq {order : RangeOrder String String} {name v : String}
    (h : f.getStdName order name = v) (hv : v ≠ "") : f.FingerMap.lookup v = some name := by
  unfold getStdName at h
  rcases hfound : (order.visit f.FingerMap).find? (fun e => e.2 = name) with _ | e
  · rw [hfound] at h
    exact absurd h.symm hv
  · rw [hfound] at h
    obtain ⟨k, x⟩ := e
    have hname : x = name := by simpa using List.find?_some hfound
    rw [← (order.ranges f.FingerMap).mem_iff, ← hname, ← h]
    exact List.mem_of_find?_eq_some hfound

/-- **What a renaming comes to**: another name at a finger that had the old one. -/
theorem rename_eq_ok {order : RangeOrder String String} {origName newName : String}
    {f' : FingerNameConfig} (h : f.rename order origName newName = .ok f') :
    ∃ v, f.getStdName order origName = v ∧ v ≠ "" ∧ f.FingerMap.lookup v = some origName ∧
      f' = { f with FingerMap := f.FingerMap.insert v newName } := by
  unfold rename at h
  dsimp only at h
  split_ifs at h with hv
  cases h
  exact ⟨_, rfl, hv, getStdName_eq rfl hv, rfl⟩

theorem WellFormed.rename (h : f.WellFormed) {order : RangeOrder String String}
    {origName newName : String} {f' : FingerNameConfig}
    (hf : f.rename order origName newName = .ok f') : f'.WellFormed := by
  obtain ⟨v, -, -, hv, rfl⟩ := rename_eq_ok hf
  have hmem : v ∈ f.FingerMap := AList.lookup_isSome.mp (by rw [hv]; rfl)
  refine ⟨h.nodup, fun w => ?_⟩
  rw [AList.mem_insert, h.mem_iff]
  constructor
  · exact Or.inr
  · rintro (rfl | hw)
    · exact hmem
    · exact hw

theorem WellFormed.foldl_addMissing {vs res : List String} (h : f.WellFormed) :
    (vs.foldl addMissing (res, f)).2.WellFormed := by
  induction vs generalizing res f with
  | nil => exact h
  | cons v vs ih =>
      rw [List.foldl_cons, addMissing]
      split_ifs
      · exact ih h
      · exact ih (h.setWithoutSave v v)

theorem WellFormed.getFingerNames (h : f.WellFormed) (stdNames : List String) :
    (f.getFingerNames stdNames).2.WellFormed := by
  unfold FingerNameConfig.getFingerNames
  dsimp only
  split_ifs
  · exact h
  · exact h.foldl_addMissing

/-- **Every operation keeps list and map in step.** -/
theorem WellFormed.apply (h : f.WellFormed) (op : NameOp) : (f.apply op).WellFormed := by
  cases op with
  | set stdName fingerName => exact h.setWithoutSave stdName fingerName
  | delete stdName => exact h.delete stdName
  | rename order origName newName =>
      show ((f.rename order origName newName).toOption.getD f).WellFormed
      rcases hf : f.rename order origName newName with msg | f'
      · exact h
      · exact h.rename hf
  | clear => exact wellFormed_empty
  | getFingerNames stdNames => exact h.getFingerNames stdNames

/-- **So does every sequence.** -/
theorem WellFormed.foldl_apply (h : f.WellFormed) (ops : List NameOp) :
    (ops.foldl FingerNameConfig.apply f).WellFormed := by
  induction ops generalizing f with
  | nil => exact h
  | cons op ops ih => exact ih (h.apply op)

/-! ## What is listed -/

/-- The fingers that are not mapped. -/
def missing (f : FingerNameConfig) (stdNames : List String) : List String :=
  stdNames.filter fun v => v ∉ f.StdNames

theorem mem_missing {v : String} : v ∈ f.missing stdNames ↔ v ∈ stdNames ∧ v ∉ f.StdNames := by
  simp [missing]

/-- A finger that is mapped is found in the list, with its name. -/
theorem WellFormed.lookup_of_mem (h : f.WellFormed) {v : String} (hv : v ∈ f.StdNames) :
    ∃ name, f.FingerMap.lookup v = some name :=
  Option.isSome_iff_exists.mp (AList.lookup_isSome.mpr ((h.mem_iff v).mp hv))

theorem WellFormed.lookup_of_notMem (h : f.WellFormed) {v : String} (hv : v ∉ f.StdNames) :
    f.FingerMap.lookup v = none :=
  AList.lookup_eq_none.mpr fun hmem => hv ((h.mem_iff v).mpr hmem)

/-- What is added for one finger leaves the others as they are. -/
theorem missing_setWithoutSave {v : String} {vs : List String} (hv : v ∉ vs) :
    (f.setWithoutSave v v).missing vs = f.missing vs := by
  apply List.filter_congr
  intro w hw
  have hne : w ≠ v := fun heq => hv (heq ▸ hw)
  unfold setWithoutSave
  dsimp only
  split_ifs
  · rfl
  · simp [hne]

/-- **The second loop** lists the fingers that are not in the list, under their own names, behind
the others. -/
theorem foldl_addMissing_fst (hnd : stdNames.Nodup) (res : List String) :
    (stdNames.foldl addMissing (res, f)).1 = res ++ f.missing stdNames := by
  induction stdNames generalizing res f with
  | nil => simp [missing]
  | cons v vs ih =>
      obtain ⟨hv, hnd⟩ := List.nodup_cons.mp hnd
      rw [List.foldl_cons, addMissing]
      split_ifs with hmem
      · have hskip : f.missing (v :: vs) = f.missing vs := List.filter_cons_of_neg (by simp [hmem])
        rw [hskip]
        exact ih hnd res
      · have hadd : f.missing (v :: vs) = v :: f.missing vs :=
          List.filter_cons_of_pos (by simp [hmem])
        rw [ih hnd, missing_setWithoutSave hv, hadd, List.append_assoc, List.singleton_append]

/-- **What the second loop keeps**: the fingers that are not mapped are, then, as themselves. -/
theorem foldl_addMissing_snd (h : f.WellFormed) (hnd : stdNames.Nodup) (res : List String) :
    (stdNames.foldl addMissing (res, f)).2.StdNames = f.StdNames ++ f.missing stdNames ∧
      ∀ w, (stdNames.foldl addMissing (res, f)).2.FingerMap.lookup w =
        if w ∈ f.missing stdNames then some w else f.FingerMap.lookup w := by
  induction stdNames generalizing res f with
  | nil => simp [missing]
  | cons v vs ih =>
      obtain ⟨hv, hnd⟩ := List.nodup_cons.mp hnd
      rw [List.foldl_cons, addMissing]
      split_ifs with hmem
      · have hskip : f.missing (v :: vs) = f.missing vs := List.filter_cons_of_neg (by simp [hmem])
        rw [hskip]
        exact ih h hnd res
      · have hnew : v ∉ f.FingerMap := fun hkey => hmem ((h.mem_iff v).mpr hkey)
        have hnames : (f.setWithoutSave v v).StdNames = f.StdNames ++ [v] := if_neg hnew
        have hadd : f.missing (v :: vs) = v :: f.missing vs :=
          List.filter_cons_of_pos (by simp [hmem])
        obtain ⟨hstd, hmap⟩ := ih (h.setWithoutSave v v) hnd (res ++ [v])
        rw [missing_setWithoutSave hv] at hstd hmap
        rw [hadd]
        refine ⟨?_, fun w => ?_⟩
        · rw [hstd, hnames, List.append_assoc, List.singleton_append]
        · rw [hmap]
          by_cases hw : w = v
          · subst hw
            rw [if_pos (List.mem_cons_self ..)]
            split_ifs
            · rfl
            · exact AList.lookup_insert _
          · simp only [List.mem_cons, hw, false_or]
            split_ifs
            · rfl
            · exact AList.lookup_insert_ne hw

/-- The fingers that are listed and mapped, in either order. -/
theorem perm_mapped (h : f.WellFormed) (hnd : stdNames.Nodup) :
    (f.StdNames.filter fun v => v ∈ stdNames).Perm (stdNames.filter fun v => v ∈ f.StdNames) := by
  apply (List.perm_ext_iff_of_nodup (h.nodup.filter _) (hnd.filter _)).mpr
  intro v
  simp only [List.mem_filter, decide_eq_true_eq]
  exact and_comm

/-- No finger is missing where the lengths agree. -/
theorem missing_eq_nil_of_length (h : f.WellFormed) (hnd : stdNames.Nodup)
    (hlen : stdNames.length = (f.mappedNames stdNames).length) : f.missing stdNames = [] := by
  rw [mappedNames, List.length_map, (perm_mapped h hnd).length_eq] at hlen
  have hall := List.length_filter_eq_length_iff.mp hlen.symm
  apply List.filter_eq_nil_iff.mpr
  intro v hv
  have hmem := hall v hv
  simp only [decide_eq_true_eq] at hmem ⊢
  exact not_not_intro hmem

/-- **What is listed, and kept**: the check of the lengths only saves a loop that has nothing to
do. -/
theorem getFingerNames_eq (h : f.WellFormed) (hnd : stdNames.Nodup) :
    (f.getFingerNames stdNames).1 = f.mappedNames stdNames ++ f.missing stdNames ∧
      (f.getFingerNames stdNames).2.StdNames = f.StdNames ++ f.missing stdNames ∧
      ∀ w, (f.getFingerNames stdNames).2.FingerMap.lookup w =
        if w ∈ f.missing stdNames then some w else f.FingerMap.lookup w := by
  unfold getFingerNames
  dsimp only
  split_ifs with hlen
  · rw [missing_eq_nil_of_length h hnd hlen]
    simp
  · exact ⟨foldl_addMissing_fst hnd _, foldl_addMissing_snd h hnd _⟩

/-- The names that are listed are those of the fingers. -/
theorem perm_getFingerNames (h : f.WellFormed) (hnd : stdNames.Nodup) :
    (f.getFingerNames stdNames).1.Perm (stdNames.map f.nameOf) := by
  have hmapped : f.mappedNames stdNames =
      (f.StdNames.filter fun v => v ∈ stdNames).map f.nameOf := by
    apply List.map_congr_left
    intro v hv
    obtain ⟨name, hname⟩ := h.lookup_of_mem (List.mem_filter.mp hv).1
    rw [nameOf, hname]
    rfl
  have hmissing : f.missing stdNames = (f.missing stdNames).map f.nameOf := by
    conv_lhs => rw [← List.map_id (f.missing stdNames)]
    apply List.map_congr_left
    intro v hv
    rw [nameOf, h.lookup_of_notMem (mem_missing.mp hv).2]
    rfl
  rw [(getFingerNames_eq h hnd).1, hmapped, hmissing, ← List.map_append]
  apply List.Perm.map
  apply ((perm_mapped h hnd).append_right _).trans
  simpa [missing] using List.filter_append_perm (fun v => decide (v ∈ f.StdNames)) stdNames

/-- **The second time** every finger is mapped, and is listed where it was. -/
theorem getFingerNames_again (h : f.WellFormed) (hnd : stdNames.Nodup) :
    (f.getFingerNames stdNames).2.getFingerNames stdNames = f.getFingerNames stdNames := by
  obtain ⟨hres, hstd, hmap⟩ := getFingerNames_eq h hnd
  have hwf := h.getFingerNames stdNames
  generalize hg : f.getFingerNames stdNames = g at hres hstd hmap hwf ⊢
  have hnone : g.2.missing stdNames = [] := by
    apply List.filter_eq_nil_iff.mpr
    intro v hv
    rw [hstd]
    simp only [decide_eq_true_eq, not_not, List.mem_append, mem_missing]
    by_cases hmem : v ∈ f.StdNames
    · exact Or.inl hmem
    · exact Or.inr ⟨hv, hmem⟩
  have hold : (f.StdNames.filter fun v => v ∈ stdNames).map
      (fun v => (g.2.FingerMap.lookup v).getD "") = f.mappedNames stdNames := by
    apply List.map_congr_left
    intro v hv
    have hmem : v ∉ f.missing stdNames := fun hmiss =>
      (mem_missing.mp hmiss).2 (List.mem_filter.mp hv).1
    rw [hmap, if_neg hmem]
  have hnew : ((f.missing stdNames).filter fun v => v ∈ stdNames).map
      (fun v => (g.2.FingerMap.lookup v).getD "") = f.missing stdNames := by
    have hself : ((f.missing stdNames).filter fun v => v ∈ stdNames) = f.missing stdNames := by
      apply List.filter_eq_self.mpr
      intro v hv
      simpa using (mem_missing.mp hv).1
    rw [hself]
    conv_rhs => rw [← List.map_id (f.missing stdNames)]
    apply List.map_congr_left
    intro v hv
    rw [hmap, if_pos hv]
    rfl
  have hnames : g.2.mappedNames stdNames = g.1 := by
    rw [mappedNames, hstd, List.filter_append, List.map_append, hold, hnew, hres]
  have hlen : stdNames.length = (g.2.mappedNames stdNames).length := by
    have hperm := perm_getFingerNames h hnd
    rw [hg] at hperm
    rw [hnames, hperm.length_eq, List.length_map]
  unfold getFingerNames
  dsimp only
  rw [if_pos hlen, hnames]

/-- **List and map represent the names.** After every sequence of operations the list is
duplicate-free and has the keys of the map, and `getFingerNames` does what it is to do, of whatever
fingers. -/
theorem finger_map_represents (ops : List NameOp) :
    (ops.foldl apply empty).WellFormed ∧
      ∀ stdNames : List String, stdNames.Nodup → (ops.foldl apply empty).Reconciles stdNames := by
  have h : (ops.foldl apply empty).WellFormed := wellFormed_empty.foldl_apply ops
  refine ⟨h, fun stdNames hnd => ?_⟩
  constructor
  · exact perm_getFingerNames h hnd
  · intro v name hname
    have hmem : v ∉ (ops.foldl apply empty).missing stdNames := by
      intro hmiss
      rw [h.lookup_of_notMem (mem_missing.mp hmiss).2] at hname
      cases hname
    rw [(getFingerNames_eq h hnd).2.2, if_neg hmem, hname]
  · exact getFingerNames_again h hnd

/-- A finger that is given a name, and one that is not. -/
theorem finger_map_represents_two :
    ([NameOp.set "left-thumb" "a"].foldl apply empty).Reconciles ["right-thumb", "left-thumb"] :=
  (finger_map_represents [NameOp.set "left-thumb" "a"]).2 _ (by decide)

end FingerNameConfig

end LingmoAuthenticate.Fingerprint
