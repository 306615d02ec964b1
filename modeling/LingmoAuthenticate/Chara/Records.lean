import Mathlib.Data.Int.Notation
import Mathlib.Data.List.Induction
import Mathlib.Logic.Function.Basic
import LingmoAuthenticate.Lib.GoMap

/-!
# The records of biometric data: `charaDataManger/manager.go`

A record belongs to a user, is of a type and has a name that the user has chosen; its key was made
by the service and is known to the driver that keeps the data. The map of the records holds
pointers, so that what is written through a pointer is seen under every key that it stands under. A
record counts as long as its driver lists it.

* `Records.Unique`: of one user, type and name, at most one record is available.
* `unique_saveCharaInfo_iff`, `unique_changeCharaName_iff`, `unique_handleDriverListChange_iff`:
  when a record that is saved, renamed, or listed again leaves the names unique.
* `Unique.mono`: records that go, or are not available any more, leave them unique.
-/

namespace LingmoAuthenticate.Chara

open Lib

/-- Types are flags of 32 bits. Source: `authcommon/type.go`, `CharaType`. -/
abbrev CharaType := BitVec 32

/-- Source: `authcommon/type.go`, `AuthenticationFlagFace`. -/
def authenticationFlagFace : CharaType := 4

/-- Source: `authcommon/type.go`, `AuthenticationFlagIris`. -/
def authenticationFlagIris : CharaType := 64

/-- Source: `authcommon/type.go`, `CharaInfo`. -/
structure CharaInfo where
  serverName : String
  uuid : String
  charaType : CharaType
  charaName : String
  chara : String
  bAvailable : Bool
  time : ℤ
  deriving DecidableEq, Repr

/-- A record of zero values. -/
def CharaInfo.zero : CharaInfo := ⟨"", "", 0, "", "", false, 0⟩

/-- Two records of one user, type and name. -/
def SameName (a b : CharaInfo) : Prop :=
  a.uuid = b.uuid ∧ a.charaType = b.charaType ∧ a.charaName = b.charaName

instance (a b : CharaInfo) : Decidable (SameName a b) := inferInstanceAs (Decidable (_ ∧ _ ∧ _))

/-- An available record of this user, type and name. -/
def Named (uuid : String) (charaType : CharaType) (name : String) (info : CharaInfo) : Prop :=
  info.uuid = uuid ∧ info.charaType = charaType ∧ info.charaName = name ∧ info.bAvailable = true

instance (uuid : String) (charaType : CharaType) (name : String) (info : CharaInfo) :
    Decidable (Named uuid charaType name info) :=
  inferInstanceAs (Decidable (_ ∧ _ ∧ _ ∧ _))

/-- What the pointers point to, and the pointers by key. Source: `charaDataManger/manager.go`,
`CharaDataManager`, what `charaInfoMtx` guards. -/
structure Records where
  heap : ℕ → CharaInfo
  charaInfoMap : GoMap String ℕ

/-- An order of the loops over the map. -/
abbrev Order := GoMap.RangeOrder String ℕ

namespace Records

/-! ## The operations -/

/-- Source: `charaDataManger/manager.go`, `CharaDataManager.CheckCharaNameAvailable`. -/
def checkCharaNameAvailable (m : Records) (order : Order) (uuid : String) (charaType : CharaType)
    (charaName : String) : Bool :=
  ¬ (order.visit m.charaInfoMap).any fun e => Named uuid charaType charaName (m.heap e.2)

/-- The record becomes available and is stored, and those of its name that are not available are
deleted. Source: `charaDataManger/manager.go`, `CharaDataManager.SaveCharaInfo`. -/
def saveCharaInfo (m : Records) (charaInfo : ℕ) (now : ℤ) : Records :=
  let info := { m.heap charaInfo with time := now, bAvailable := true }
  let heap := Function.update m.heap charaInfo info
  { heap
    charaInfoMap := GoMap.keep
      (fun _ val =>
        ¬ (SameName (heap val) info ∧ (heap val).chara ≠ info.chara ∧ ¬ (heap val).bAvailable))
      (m.charaInfoMap.insert info.chara charaInfo) }

/-- The loop of a renaming: it ends with an error at a record that has the new name, whatever was
renamed before. Source: `charaDataManger/manager.go`, the first loop of
`CharaDataManager.ChangeCharaName`. -/
def renameLoop (uuid : String) (charaType : CharaType) (oldName newName : String) :
    List (Σ _ : String, ℕ) → (ℕ → CharaInfo) → Option ℕ →
      (ℕ → CharaInfo) × Except String (Option ℕ)
  | [], heap, charaInfo => (heap, .ok charaInfo)
  | e :: es, heap, charaInfo =>
      if Named uuid charaType newName (heap e.2) then
        (heap, .error ("the new name of " ++ newName ++ " had another chara "))
      else if Named uuid charaType oldName (heap e.2) then
        renameLoop uuid charaType oldName newName es
          (Function.update heap e.2 { heap e.2 with charaName := newName }) (some e.2)
      else renameLoop uuid charaType oldName newName es heap charaInfo

/-- Records of the old name that are not available are deleted.
Source: `charaDataManger/manager.go`, `CharaDataManager.ChangeCharaName`. -/
def changeCharaName (m : Records) (order : Order) (uuid : String) (charaType : CharaType)
    (oldName newName : String) : Records × Option String :=
  match renameLoop uuid charaType oldName newName (order.visit m.charaInfoMap) m.heap none with
  | (heap, .error err) => ({ m with heap }, some err)
  | (heap, .ok none) =>
      ({ m with heap }, some ("not found chara info by uuid=" ++ uuid ++ ",chara type=" ++
        toString charaType.toInt ++ ",name=" ++ oldName))
  | (heap, .ok (some charaInfo)) =>
      ({ heap
         charaInfoMap := m.charaInfoMap.keep fun _ val =>
          ¬ ((heap val).charaName = oldName ∧ (heap val).uuid = uuid ∧
            (heap val).charaType = charaType ∧ ¬ (heap val).bAvailable ∧
            (heap charaInfo).chara ≠ (heap val).chara) }, none)

/-- The first record of the name is deleted, available or not; where there is none, the key is that
of a zero record. Source: `charaDataManger/manager.go`, `CharaDataManager.DeleteChara`. -/
def deleteChara (m : Records) (order : Order) (uuid : String) (charaType : CharaType)
    (charaName : String) : Records :=
  let charaInfo := ((order.visit m.charaInfoMap).find? fun e => (m.heap e.2).uuid = uuid ∧
    (m.heap e.2).charaType = charaType ∧ (m.heap e.2).charaName = charaName).map
      fun e => m.heap e.2
  { m with charaInfoMap := m.charaInfoMap.erase (charaInfo.getD .zero).chara }

/-- One record is matched with what its driver lists. -/
def setAvailable (serverName : String) (chara : List String) (heap : ℕ → CharaInfo)
    (e : Σ _ : String, ℕ) : ℕ → CharaInfo :=
  if (heap e.2).serverName = serverName then
    Function.update heap e.2 { heap e.2 with bAvailable := e.1 ∈ chara }
  else heap

/-- Source: `charaDataManger/manager.go`, `CharaDataManager.handleDriverListChange`, and the first
half of `CharaDataManager.HandleDriverCharaTypeChange`. -/
def handleDriverListChange (m : Records) (order : Order) (serverName : String)
    (chara : List String) : Records :=
  { m with heap := (order.visit m.charaInfoMap).foldl (setAvailable serverName chara) m.heap }

/-- The records of types that a driver does not support any more.
Source: `charaDataManger/manager.go`, the second half of
`CharaDataManager.HandleDriverCharaTypeChange`. -/
def setUnavailable (m : Records) (order : Order) (serverName : String) (charaDelete : CharaType) :
    Records :=
  { m with
    heap := (order.visit m.charaInfoMap).foldl (fun heap e =>
      if (heap e.2).serverName = serverName ∧ (heap e.2).charaType &&& charaDelete ≠ 0 then
        Function.update heap e.2 { heap e.2 with bAvailable := false }
      else heap) m.heap }

/-! ## Names that are unique -/

/-- Of one user, type and name, at most one record is available. -/
def Unique (m : Records) : Prop :=
  ∀ k k' r r', m.charaInfoMap.lookup k = some r → m.charaInfoMap.lookup k' = some r' →
    (m.heap r).bAvailable = true → (m.heap r').bAvailable = true →
      SameName (m.heap r) (m.heap r') → k = k'

/-- Records that go, or are not available any more, leave the names unique. -/
theorem Unique.mono {m m' : Records} (h : m.Unique)
    (hmap : ∀ k r, m'.charaInfoMap.lookup k = some r → (m'.heap r).bAvailable = true →
      m.charaInfoMap.lookup k = some r ∧ (m.heap r).bAvailable = true ∧
        SameName (m.heap r) (m'.heap r)) : m'.Unique := by
  intro k k' r r' hk hk' hr hr' hsame
  obtain ⟨hold, havail, hname⟩ := hmap k r hk hr
  obtain ⟨hold', havail', hname'⟩ := hmap k' r' hk' hr'
  refine h k k' r r' hold hold' havail havail' ⟨?_, ?_, ?_⟩
  · rw [hname.1, hsame.1, hname'.1]
  · rw [hname.2.1, hsame.2.1, hname'.2.1]
  · rw [hname.2.2, hsame.2.2, hname'.2.2]

theorem sameName_refl (a : CharaInfo) : SameName a a := ⟨rfl, rfl, rfl⟩

/-- A deletion leaves the names unique. -/
theorem Unique.deleteChara {m : Records} (h : m.Unique) (order : Order) (uuid : String)
    (charaType : CharaType) (charaName : String) :
    (m.deleteChara order uuid charaType charaName).Unique := by
  refine h.mono ?_
  intro k r hk hr
  refine ⟨?_, hr, sameName_refl _⟩
  simp only [Records.deleteChara] at hk
  by_cases hkey : k = ((((order.visit m.charaInfoMap).find? fun e => (m.heap e.2).uuid = uuid ∧
      (m.heap e.2).charaType = charaType ∧ (m.heap e.2).charaName = charaName).map
        fun e => m.heap e.2).getD .zero).chara
  · rw [hkey, AList.lookup_erase] at hk
    cases hk
  · rw [AList.lookup_erase_ne hkey] at hk
    exact hk

/-- A loop that takes records away keeps what they are called, and makes none available. -/
theorem foldl_unavailable (p : CharaInfo → Prop) [DecidablePred p] (es : List (Σ _ : String, ℕ))
    (heap : ℕ → CharaInfo) (r : ℕ) :
    let heap' := es.foldl (fun heap e => if p (heap e.2) then
      Function.update heap e.2 { heap e.2 with bAvailable := false } else heap) heap
    SameName (heap r) (heap' r) ∧ ((heap' r).bAvailable = true → (heap r).bAvailable = true) := by
  induction es generalizing heap with
  | nil => exact ⟨sameName_refl _, id⟩
  | cons e es ih =>
      rw [List.foldl_cons]
      split_ifs
      · obtain ⟨hname, havail⟩ :=
          ih (Function.update heap e.2 { heap e.2 with bAvailable := false })
        by_cases hr : r = e.2
        · subst hr
          rw [Function.update_self] at hname havail
          exact ⟨hname, fun h => Bool.noConfusion (havail h)⟩
        · rw [Function.update_of_ne hr] at hname havail
          exact ⟨hname, havail⟩
      · exact ih heap

/-- Types that go leave the names unique. -/
theorem Unique.setUnavailable {m : Records} (h : m.Unique) (order : Order) (serverName : String)
    (charaDelete : CharaType) : (m.setUnavailable order serverName charaDelete).Unique := by
  refine h.mono ?_
  intro k r hk hr
  obtain ⟨hname, havail⟩ := foldl_unavailable
    (fun info => info.serverName = serverName ∧ info.charaType &&& charaDelete ≠ 0)
    (order.visit m.charaInfoMap) m.heap r
  exact ⟨hk, havail hr, hname⟩

/-! ## A record is saved -/

/-- The name is free: no other key holds an available record of it, or the record itself. -/
def NameFree (m : Records) (charaInfo : ℕ) : Prop :=
  ∀ k r, m.charaInfoMap.lookup k = some r →
    r = charaInfo ∨ ((m.heap r).bAvailable = true ∧ SameName (m.heap r) (m.heap charaInfo)) →
      k = (m.heap charaInfo).chara

/-- What stands under a key after a record was saved, if it is available. -/
theorem lookup_saveCharaInfo {m : Records} {charaInfo : ℕ} {now : ℤ} {k : String} {r : ℕ}
    (hr : ((m.saveCharaInfo charaInfo now).heap r).bAvailable = true) :
    (m.saveCharaInfo charaInfo now).charaInfoMap.lookup k = some r ↔
      (m.charaInfoMap.insert (m.heap charaInfo).chara charaInfo).lookup k = some r := by
  simp only [saveCharaInfo] at hr ⊢
  rw [GoMap.lookup_keep_eq_some]
  refine and_iff_left ?_
  rw [decide_eq_true_eq]
  rintro ⟨-, -, hnot⟩
  exact hnot hr

/-- **A record that is saved** leaves the names unique exactly where its name is free. -/
theorem unique_saveCharaInfo_iff {m : Records} (h : m.Unique) (charaInfo : ℕ) (now : ℤ) :
    (m.saveCharaInfo charaInfo now).Unique ↔ m.NameFree charaInfo := by
  have hself : (m.saveCharaInfo charaInfo now).heap charaInfo =
      { m.heap charaInfo with time := now, bAvailable := true } := Function.update_self _ _ _
  have hother : ∀ {r}, r ≠ charaInfo → (m.saveCharaInfo charaInfo now).heap r = m.heap r := by
    intro r hr
    exact Function.update_of_ne hr _ _
  constructor
  · intro hu k r hk hr
    by_contra hne
    have havail : ((m.saveCharaInfo charaInfo now).heap r).bAvailable = true ∧
        SameName ((m.saveCharaInfo charaInfo now).heap r)
          ((m.saveCharaInfo charaInfo now).heap charaInfo) := by
      by_cases hcase : r = charaInfo
      · rw [hcase, hself]
        exact ⟨rfl, sameName_refl _⟩
      · obtain ⟨havail, hsame⟩ := hr.resolve_left hcase
        rw [hother hcase, hself]
        exact ⟨havail, hsame⟩
    have hselfAvail : ((m.saveCharaInfo charaInfo now).heap charaInfo).bAvailable = true := by
      rw [hself]
    refine hne (hu k (m.heap charaInfo).chara r charaInfo ?_ ?_ havail.1 hselfAvail havail.2)
    · rw [lookup_saveCharaInfo havail.1, AList.lookup_insert_ne hne]
      exact hk
    · rw [lookup_saveCharaInfo hselfAvail, AList.lookup_insert]
  · intro hfree
    -- what stands under another key does not have the name
    have hold : ∀ {k r}, (m.saveCharaInfo charaInfo now).charaInfoMap.lookup k = some r →
        ((m.saveCharaInfo charaInfo now).heap r).bAvailable = true → k ≠ (m.heap charaInfo).chara →
          m.charaInfoMap.lookup k = some r ∧ r ≠ charaInfo := by
      intro k r hk hr hne
      rw [lookup_saveCharaInfo hr, AList.lookup_insert_ne hne] at hk
      exact ⟨hk, fun hcase => hne (hfree k r hk (.inl hcase))⟩
    have hnew : ∀ {r}, (m.saveCharaInfo charaInfo now).charaInfoMap.lookup
        (m.heap charaInfo).chara = some r →
        ((m.saveCharaInfo charaInfo now).heap r).bAvailable = true → r = charaInfo := by
      intro r hk hr
      rw [lookup_saveCharaInfo hr, AList.lookup_insert, Option.some.injEq] at hk
      exact hk.symm
    have hclash : ∀ {k r}, (m.saveCharaInfo charaInfo now).charaInfoMap.lookup k = some r →
        ((m.saveCharaInfo charaInfo now).heap r).bAvailable = true →
          SameName ((m.saveCharaInfo charaInfo now).heap r) (m.heap charaInfo) →
            k = (m.heap charaInfo).chara := by
      intro k r hk hr hsame
      by_contra hne
      obtain ⟨hk', hr'⟩ := hold hk hr hne
      rw [hother hr'] at hr hsame
      exact hne (hfree k r hk' (.inr ⟨hr, hsame⟩))
    intro k k' r r' hk hk' hr hr' hsame
    by_cases hkey : k = (m.heap charaInfo).chara
    · subst hkey
      obtain rfl := hnew hk hr
      rw [hself] at hsame
      exact (hclash hk' hr' ⟨hsame.1.symm, hsame.2.1.symm, hsame.2.2.symm⟩).symm
    · by_cases hkey' : k' = (m.heap charaInfo).chara
      · subst hkey'
        obtain rfl := hnew hk' hr'
        rw [hself] at hsame
        exact hclash hk hr hsame
      · obtain ⟨hk, hne⟩ := hold hk hr hkey
        obtain ⟨hk', hne'⟩ := hold hk' hr' hkey'
        rw [hother hne] at hr hsame
        rw [hother hne'] at hr' hsame
        exact h k k' r r' hk hk' hr hr' hsame

/-! ## A record is renamed -/

section rename

variable {uuid : String} {charaType : CharaType} {oldName newName : String}

/-- A loop that meets no record of the old name writes nothing. -/
theorem renameLoop_heap {es : List (Σ _ : String, ℕ)} {heap : ℕ → CharaInfo}
    (h : ∀ e ∈ es, ¬ Named uuid charaType oldName (heap e.2)) (charaInfo : Option ℕ) :
    (renameLoop uuid charaType oldName newName es heap charaInfo).1 = heap := by
  induction es with
  | nil => rfl
  | cons e es ih =>
      obtain ⟨he, hes⟩ := List.forall_mem_cons.mp h
      unfold renameLoop
      split_ifs
      · rfl
      · exact ih hes

/-- **The loop of a renaming**: it meets no record of the old name, or one of the new name before
that, or it renames the first record of the old name and goes on. -/
theorem renameLoop_cases (es : List (Σ _ : String, ℕ)) (heap : ℕ → CharaInfo) :
    (∀ e ∈ es, ¬ Named uuid charaType oldName (heap e.2)) ∨
      (∃ before e after, es = before ++ e :: after ∧ Named uuid charaType newName (heap e.2) ∧
        (∀ x ∈ before, ¬ Named uuid charaType oldName (heap x.2)) ∧
        (renameLoop uuid charaType oldName newName es heap none).1 = heap) ∨
      ∃ before e after, es = before ++ e :: after ∧ Named uuid charaType oldName (heap e.2) ∧
        ¬ Named uuid charaType newName (heap e.2) ∧
        (∀ x ∈ before, ¬ Named uuid charaType newName (heap x.2)) ∧
        renameLoop uuid charaType oldName newName es heap none =
          renameLoop uuid charaType oldName newName after
            (Function.update heap e.2 { heap e.2 with charaName := newName }) (some e.2) := by
  induction es with
  | nil => exact .inl (by simp)
  | cons e es ih =>
      by_cases hnew : Named uuid charaType newName (heap e.2)
      · refine .inr (.inl ⟨[], e, es, rfl, hnew, by simp, ?_⟩)
        rw [renameLoop, if_pos hnew]
      · by_cases hold : Named uuid charaType oldName (heap e.2)
        · refine .inr (.inr ⟨[], e, es, rfl, hold, hnew, by simp, ?_⟩)
          rw [renameLoop, if_neg hnew, if_pos hold]
        · have hgo : renameLoop uuid charaType oldName newName (e :: es) heap none =
              renameLoop uuid charaType oldName newName es heap none := by
            rw [renameLoop, if_neg hnew, if_neg hold]
          rw [hgo]
          rcases ih with hnone | ⟨before, x, after, rfl, hx, hbefore, hheap⟩ |
            ⟨before, x, after, rfl, hx, hx', hbefore, heq⟩
          · exact .inl (List.forall_mem_cons.mpr ⟨hold, hnone⟩)
          · exact .inr (.inl ⟨e :: before, x, after, rfl, hx,
              List.forall_mem_cons.mpr ⟨hold, hbefore⟩, hheap⟩)
          · exact .inr (.inr ⟨e :: before, x, after, rfl, hx, hx',
              List.forall_mem_cons.mpr ⟨hnew, hbefore⟩, heq⟩)

/-- The records of the old name that go after a renaming are not available. -/
theorem unique_changeCharaName_heap {m : Records} {order : Order} :
    (m.changeCharaName order uuid charaType oldName newName).1.Unique ↔
      Unique { m with heap := (renameLoop uuid charaType oldName newName
        (order.visit m.charaInfoMap) m.heap none).1 } := by
  unfold changeCharaName
  rcases renameLoop uuid charaType oldName newName (order.visit m.charaInfoMap) m.heap none with
    ⟨heap, err | _ | charaInfo⟩
  · exact Iff.rfl
  · exact Iff.rfl
  · constructor
    · intro h
      refine h.mono ?_
      intro k r hk hr
      refine ⟨?_, hr, sameName_refl _⟩
      rw [GoMap.lookup_keep_eq_some, decide_eq_true_eq]
      refine ⟨hk, ?_⟩
      rintro ⟨-, -, -, hnot, -⟩
      exact hnot hr
    · intro h
      refine h.mono ?_
      intro k r hk hr
      exact ⟨(GoMap.lookup_keep_eq_some.mp hk).1, hr, sameName_refl _⟩

/-- The record of the old name is not visited before one of the new name. -/
def NewNameFirst (m : Records) (order : Order) (uuid : String) (charaType : CharaType)
    (oldName newName : String) : Prop :=
  ∀ k k' r r', m.charaInfoMap.lookup k = some r → m.charaInfoMap.lookup k' = some r' →
    Named uuid charaType oldName (m.heap r) → Named uuid charaType newName (m.heap r') →
      ¬ [k, k'].Sublist ((order.visit m.charaInfoMap).map Sigma.fst)

/-- Two available records of one name stand under one key. -/
theorem Unique.eq_of_named {m : Records} (h : m.Unique) {name : String} {k k' : String} {r r' : ℕ}
    (hk : m.charaInfoMap.lookup k = some r) (hk' : m.charaInfoMap.lookup k' = some r')
    (hr : Named uuid charaType name (m.heap r)) (hr' : Named uuid charaType name (m.heap r')) :
    k = k' := by
  obtain ⟨hu, ht, hn, ha⟩ := hr
  obtain ⟨hu', ht', hn', ha'⟩ := hr'
  exact h k k' r r' hk hk' ha ha' ⟨hu.trans hu'.symm, ht.trans ht'.symm, hn.trans hn'.symm⟩

/-- Of two keys in a list without repetitions, the first one stands before the second. -/
theorem mem_of_pair_sublist {k k' : String} {before after : List String}
    (h : [k, k'].Sublist (before ++ k' :: after)) (hnd : (before ++ k' :: after).Nodup) :
    k ∈ before := by
  obtain ⟨-, hafter, hdisjoint⟩ := List.nodup_append.mp hnd
  obtain ⟨l₁, l₂, hl, h₁, h₂⟩ := List.sublist_append_iff.mp h
  rcases l₁ with _ | ⟨a, l₁⟩
  · -- both would stand from the second one on
    rw [List.nil_append] at hl
    subst hl
    have hmem : k' ∈ after := by
      rcases List.sublist_cons_iff.mp h₂ with hsub | ⟨l, hl, hsub⟩
      · exact hsub.subset (by simp)
      · cases hl
        exact hsub.subset (by simp)
    exact absurd hmem (List.nodup_cons.mp hafter).1
  · rw [List.cons_append, List.cons.injEq] at hl
    obtain ⟨rfl, -⟩ := hl
    exact h₁.subset (by simp)

/-- Where the one record of the old name becomes one of the new name, the names stay unique exactly
if there was none of the new name. -/
theorem unique_update_iff {m : Records} (h : m.Unique) {key : String} {charaInfo : ℕ}
    {info : CharaInfo} (hkey : m.charaInfoMap.lookup key = some charaInfo)
    (hold : Named uuid charaType oldName (m.heap charaInfo))
    (hnew : ¬ Named uuid charaType newName (m.heap charaInfo))
    (hinfo : Named uuid charaType newName info) :
    Unique { m with heap := Function.update m.heap charaInfo info } ↔
      ∀ k r, m.charaInfoMap.lookup k = some r → ¬ Named uuid charaType newName (m.heap r) := by
  have honly : ∀ {k}, m.charaInfoMap.lookup k = some charaInfo → k = key :=
    fun hk => h.eq_of_named hk hkey hold hold
  have hself : Function.update m.heap charaInfo info charaInfo = info := Function.update_self _ _ _
  have hother : ∀ {r}, r ≠ charaInfo → Function.update m.heap charaInfo info r = m.heap r :=
    fun hr => Function.update_of_ne hr _ _
  obtain ⟨huuid, htype, hname, havail⟩ := hinfo
  constructor
  · intro hu k r hk hr
    have hne : r ≠ charaInfo := by
      rintro rfl
      exact hnew hr
    have hclash : key = k := by
      refine hu key k charaInfo r hkey hk ?_ ?_ ?_
      · dsimp only
        rw [hself]
        exact havail
      · dsimp only
        rw [hother hne]
        exact hr.2.2.2
      · dsimp only
        rw [hself, hother hne]
        exact ⟨huuid.trans hr.1.symm, htype.trans hr.2.1.symm, hname.trans hr.2.2.1.symm⟩
    rw [← hclash, hkey, Option.some.injEq] at hk
    exact hne hk.symm
  · intro hnone k k' r r' hk hk' hr hr' hsame
    dsimp only at hr hr' hsame
    by_cases hcase : r = charaInfo
    · subst hcase
      by_cases hcase' : r' = r
      · subst hcase'
        rw [honly hk, honly hk']
      · rw [hself, hother hcase'] at hsame
        rw [hother hcase'] at hr'
        exact absurd ⟨hsame.1.symm.trans huuid, hsame.2.1.symm.trans htype,
          hsame.2.2.symm.trans hname, hr'⟩ (hnone k' r' hk')
    · rw [hother hcase] at hr hsame
      by_cases hcase' : r' = charaInfo
      · subst hcase'
        rw [hself] at hsame
        exact absurd ⟨hsame.1.trans huuid, hsame.2.1.trans htype, hsame.2.2.trans hname, hr⟩
          (hnone k r hk)
      · rw [hother hcase'] at hr' hsame
        exact h k k' r r' hk hk' hr hr' hsame

/-- What a loop visits is in the map. -/
theorem lookup_of_visit {m : Records} {order : Order} {before after : List (Σ _ : String, ℕ)}
    {e x : Σ _ : String, ℕ} (heq : order.visit m.charaInfoMap = before ++ e :: after)
    (hx : x ∈ before ++ e :: after) : m.charaInfoMap.lookup x.1 = some x.2 := by
  refine (order.ranges m.charaInfoMap).mem_iff.mp ?_
  rw [heq]
  exact hx

/-- A record of the new name that is visited before any of the old name. -/
theorem newNameFirst_of_before {m : Records} (h : m.Unique) {order : Order}
    {before after : List (Σ _ : String, ℕ)} {e : Σ _ : String, ℕ}
    (heq : order.visit m.charaInfoMap = before ++ e :: after)
    (he : Named uuid charaType newName (m.heap e.2))
    (hbefore : ∀ x ∈ before, ¬ Named uuid charaType oldName (m.heap x.2)) :
    m.NewNameFirst order uuid charaType oldName newName := by
  intro k k' r r' hk hk' hr hr' hsub
  have hnd := (order.ranges m.charaInfoMap).nodup
  have hkey := lookup_of_visit heq (List.mem_append_right before (List.mem_cons_self ..))
  obtain rfl := h.eq_of_named hk' hkey hr' he
  rw [heq, List.map_append, List.map_cons] at hsub hnd
  -- the record of the old name would come before the first one of the new name
  obtain ⟨x, hx, rfl⟩ := List.mem_map.mp (mem_of_pair_sublist hsub hnd)
  have hx' := lookup_of_visit heq (List.mem_append_left _ hx)
  obtain rfl : x.2 = r := Option.some.inj (hx'.symm.trans hk)
  exact hbefore x hx hr

/-- After a record of the old name, the loop meets no other one. -/
theorem not_named_after {m : Records} (h : m.Unique) {order : Order}
    {before after : List (Σ _ : String, ℕ)} {e : Σ _ : String, ℕ}
    (heq : order.visit m.charaInfoMap = before ++ e :: after)
    (hold : Named uuid charaType oldName (m.heap e.2)) {x : Σ _ : String, ℕ} (hx : x ∈ after) :
    ¬ Named uuid charaType oldName
      (Function.update m.heap e.2 { m.heap e.2 with charaName := newName } x.2) := by
  intro hnamed
  have hnd := (order.ranges m.charaInfoMap).nodup
  rw [heq, List.map_append, List.map_cons] at hnd
  have hafter : e.1 ∉ after.map Sigma.fst :=
    (List.nodup_cons.mp (List.nodup_append.mp hnd).2.1).1
  have hkey := lookup_of_visit heq (List.mem_append_right before (List.mem_cons_self ..))
  have hx' := lookup_of_visit heq (List.mem_append_right before (List.mem_cons_of_mem e hx))
  have hnamed' : Named uuid charaType oldName (m.heap x.2) := by
    by_cases hcase : x.2 = e.2
    · rw [hcase]
      exact hold
    · rw [Function.update_of_ne hcase] at hnamed
      exact hnamed
  exact hafter (h.eq_of_named hx' hkey hnamed' hold ▸ List.mem_map_of_mem hx)

/-- Where a record of the old name comes before all of the new name, the records of the new name
come after it. -/
theorem newNameFirst_iff_none {m : Records} {order : Order}
    {before after : List (Σ _ : String, ℕ)} {e : Σ _ : String, ℕ}
    (heq : order.visit m.charaInfoMap = before ++ e :: after)
    (hold : Named uuid charaType oldName (m.heap e.2))
    (hnew : ¬ Named uuid charaType newName (m.heap e.2))
    (hbefore : ∀ x ∈ before, ¬ Named uuid charaType newName (m.heap x.2)) :
    (∀ k r, m.charaInfoMap.lookup k = some r → ¬ Named uuid charaType newName (m.heap r)) ↔
      m.NewNameFirst order uuid charaType oldName newName := by
  constructor
  · intro hnone k k' r r' _ hk' _ hr' _
    exact hnone k' r' hk' hr'
  · intro hfirst k r hk hr
    have hkey := lookup_of_visit heq (List.mem_append_right before (List.mem_cons_self ..))
    have hmem : (⟨k, r⟩ : Σ _ : String, ℕ) ∈ before ++ e :: after := by
      rw [← heq]
      exact (order.ranges m.charaInfoMap).mem_iff.mpr hk
    refine hfirst e.1 k e.2 r hkey hk hold hr ?_
    rcases List.mem_append.mp hmem with hmem | hmem
    · exact absurd hr (hbefore _ hmem)
    · rcases List.mem_cons.mp hmem with rfl | hmem
      · exact absurd hr hnew
      · rw [heq, List.map_append, List.map_cons]
        refine List.Sublist.trans ?_ (List.sublist_append_right _ _)
        refine List.Sublist.cons_cons _ (List.singleton_sublist.mpr ?_)
        exact List.mem_map.mpr ⟨⟨k, r⟩, hmem, rfl⟩

/-- **A record that is renamed** leaves the names unique exactly where no record of the old name is
visited before one of the new name. -/
theorem unique_changeCharaName_iff {m : Records} (h : m.Unique) (order : Order) :
    (m.changeCharaName order uuid charaType oldName newName).1.Unique ↔
      m.NewNameFirst order uuid charaType oldName newName := by
  rw [unique_changeCharaName_heap]
  have hcases :=
    @renameLoop_cases uuid charaType oldName newName (order.visit m.charaInfoMap) m.heap
  rcases hcases with
    hnone | ⟨before, e, after, heq, he, hbefore, hheap⟩ |
    ⟨before, e, after, heq, hold, hnew, hbefore, hloop⟩
  · rw [renameLoop_heap hnone none]
    refine iff_of_true h ?_
    intro k k' r r' hk _ hr
    exact absurd hr (hnone ⟨k, r⟩ ((order.ranges m.charaInfoMap).mem_iff.mpr hk))
  · rw [hheap]
    exact iff_of_true h (newNameFirst_of_before h heq he hbefore)
  · have hkey := lookup_of_visit heq (List.mem_append_right before (List.mem_cons_self ..))
    have hinfo : Named uuid charaType newName { m.heap e.2 with charaName := newName } :=
      ⟨hold.1, hold.2.1, rfl, hold.2.2.2⟩
    rw [hloop, renameLoop_heap (fun x hx => not_named_after h heq hold hx) (some e.2)]
    exact (unique_update_iff h hkey hold hnew hinfo).trans
      (newNameFirst_iff_none heq hold hnew hbefore)

end rename

/-! ## A driver lists its records anew -/

/-- The last of the keys under which a loop comes to a record: the only one, mostly. -/
def lastKey (es : List (Σ _ : String, ℕ)) (r : ℕ) : Option String :=
  (es.reverse.find? fun e => e.2 = r).map Sigma.fst

/-- Whether a record is to be available: those of the driver, if they are listed. -/
def listed (m : Records) (order : Order) (serverName : String) (chara : List String) (r : ℕ) :
    Bool :=
  if (m.heap r).serverName = serverName then
    match lastKey (order.visit m.charaInfoMap) r with
    | some k => k ∈ chara
    | none => (m.heap r).bAvailable
  else (m.heap r).bAvailable

/-- What a round makes of the record that it is for. -/
theorem setAvailable_self (serverName : String) (chara : List String) (heap : ℕ → CharaInfo)
    (e : Σ _ : String, ℕ) :
    setAvailable serverName chara heap e e.2 =
      { heap e.2 with
        bAvailable := if (heap e.2).serverName = serverName then decide (e.1 ∈ chara)
          else (heap e.2).bAvailable } := by
  unfold setAvailable
  split_ifs
  · rw [Function.update_self]
  · rfl

theorem setAvailable_other (serverName : String) (chara : List String) (heap : ℕ → CharaInfo)
    {e : Σ _ : String, ℕ} {r : ℕ} (hr : e.2 ≠ r) :
    setAvailable serverName chara heap e r = heap r := by
  unfold setAvailable
  split_ifs
  · exact Function.update_of_ne (Ne.symm hr) _ _
  · rfl

/-- What a loop over the records of a driver makes of one of them. -/
theorem foldl_setAvailable (serverName : String) (chara : List String)
    (es : List (Σ _ : String, ℕ)) (heap : ℕ → CharaInfo) (r : ℕ) :
    es.foldl (setAvailable serverName chara) heap r =
      { heap r with
        bAvailable :=
          if (heap r).serverName = serverName then
            match lastKey es r with
            | some k => k ∈ chara
            | none => (heap r).bAvailable
          else (heap r).bAvailable } := by
  induction es using List.reverseRecOn with
  | nil =>
      rw [List.foldl_nil, lastKey]
      simp
  | append_singleton es e ih =>
      rw [List.foldl_append, List.foldl_cons, List.foldl_nil, lastKey, List.reverse_append,
        List.reverse_singleton, List.singleton_append, List.find?_cons]
      by_cases hr : e.2 = r
      · subst hr
        rw [setAvailable_self, ih]
        simp only [decide_true, Option.map_some]
        split_ifs
        · rfl
        · rfl
      · rw [setAvailable_other serverName chara _ hr, ih]
        simp only [hr, decide_false, lastKey]

/-- Two records of one name are not both to be available. -/
def ListedUnique (m : Records) (order : Order) (serverName : String) (chara : List String) :
    Prop :=
  ∀ k k' r r', m.charaInfoMap.lookup k = some r → m.charaInfoMap.lookup k' = some r' →
    m.listed order serverName chara r = true → m.listed order serverName chara r' = true →
      SameName (m.heap r) (m.heap r') → k = k'

/-- **A driver that lists its records anew** leaves the names unique exactly where it does not list
two records of one name, or one that another driver has. -/
theorem unique_handleDriverListChange_iff (m : Records) (order : Order) (serverName : String)
    (chara : List String) :
    (m.handleDriverListChange order serverName chara).Unique ↔
      m.ListedUnique order serverName chara := by
  have hheap : (m.handleDriverListChange order serverName chara).heap =
      fun r => { m.heap r with bAvailable := m.listed order serverName chara r } := by
    funext r
    exact foldl_setAvailable serverName chara (order.visit m.charaInfoMap) m.heap r
  unfold Unique
  rw [hheap]
  exact Iff.rfl

end Records

end LingmoAuthenticate.Chara
