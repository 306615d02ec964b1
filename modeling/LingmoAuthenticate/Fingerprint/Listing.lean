import LingmoAuthenticate.Lib.GoMap
import LingmoAuthenticate.Fingerprint.HuaweiDevice

/-!
# The names of the files: `huawei_device.go`, `listFingers`

A listing decodes the names of the files in the directory of the user; a deletion and a renaming
look for the file of the encoded name, and then for that of the plain name. What the directory holds
is a map from names to files, sorted by their times where it is listed; of other places it is a
parameter what they answer.

* `base64Decode_base64Encode`, `decodeFingerName_encodeFingerName`: what is encoded is decoded
  again.
* `Consistent`: a deletion and a renaming of a listed name take away one file that is listed under
  it, and a name that is not listed is refused.
* `names_consistent_iff`: that is so exactly if the file of a listed name is found, by the encoded
  or by the plain name, no file is by a name that is not listed, and nothing is in the way of the new
  name.
-/

namespace LingmoAuthenticate.Fingerprint

open Lib Lib.GoMap Lib.Path

/-! ## Decoding -/

/-- The six bits of a character. Source: Go's `base64.RawURLEncoding`. -/
def base64Value (c : UInt8) : Option ℕ :=
  let n := c.toNat
  if 65 ≤ n ∧ n ≤ 90 then some (n - 65)
  else if 97 ≤ n ∧ n ≤ 122 then some (n - 71)
  else if 48 ≤ n ∧ n ≤ 57 then some (n + 4)
  else if n = 45 then some 62
  else if n = 95 then some 63
  else none

/-- Four characters at a time; bits that are left over are not looked at. -/
def base64Quanta : List UInt8 → Option (List UInt8)
  | [] => some []
  | [_] => none
  | [c₁, c₂] => do
      let a ← base64Value c₁
      let b ← base64Value c₂
      return [UInt8.ofNat (a * 4 + b / 16)]
  | [c₁, c₂, c₃] => do
      let a ← base64Value c₁
      let b ← base64Value c₂
      let c ← base64Value c₃
      return [UInt8.ofNat (a * 4 + b / 16), UInt8.ofNat (b % 16 * 16 + c / 4)]
  | c₁ :: c₂ :: c₃ :: c₄ :: rest => do
      let a ← base64Value c₁
      let b ← base64Value c₂
      let c ← base64Value c₃
      let d ← base64Value c₄
      let more ← base64Quanta rest
      return UInt8.ofNat (a * 4 + b / 16) :: UInt8.ofNat (b % 16 * 16 + c / 4) ::
        UInt8.ofNat (c % 4 * 64 + d) :: more

/-- Ends of lines are skipped. Source: Go's `base64.RawURLEncoding.DecodeString`. -/
def base64Decode (s : List UInt8) : Option (List UInt8) :=
  base64Quanta (s.filter fun c => c ≠ 10 ∧ c ≠ 13)

/-- What cannot be decoded is returned without the prefix.
Source: `huawei_device.go`, `decodeFingerName`. -/
def decodeFingerName (finger : List UInt8) : List UInt8 :=
  if encodePrefix <+: finger then
    let finger := finger.drop encodePrefix.length
    (base64Decode finger).getD finger
  else finger

/-- The bits of a character of base64. -/
theorem base64Value_base64Char : ∀ i < 64, base64Value (base64Char i) = some i := by decide

theorem base64Char_ne_eol : ∀ i < 64, base64Char i ≠ 10 ∧ base64Char i ≠ 13 := by decide

/-- Eight bits that come from two characters. -/
theorem ofNat_eq {a : UInt8} {n : ℕ} (h : n = a.toNat) : UInt8.ofNat n = a := by
  rw [h, UInt8.ofNat_toNat]

theorem base64Quanta_base64Encode (x : List UInt8) : base64Quanta (base64Encode x) = some x := by
  fun_induction base64Encode x with
  | case1 => rfl
  | case2 a =>
      have ha := a.toNat_lt
      rw [base64Quanta, base64Value_base64Char _ (by omega), base64Value_base64Char _ (by omega)]
      show some [UInt8.ofNat _] = _
      rw [ofNat_eq (a := a) (by omega)]
  | case3 a b =>
      have ha := a.toNat_lt
      have hb := b.toNat_lt
      rw [base64Quanta, base64Value_base64Char _ (by omega), base64Value_base64Char _ (by omega),
        base64Value_base64Char _ (by omega)]
      show some [UInt8.ofNat _, UInt8.ofNat _] = _
      rw [ofNat_eq (a := a) (by omega), ofNat_eq (a := b) (by omega)]
  | case4 a b c rest ih =>
      have ha := a.toNat_lt
      have hb := b.toNat_lt
      have hc := c.toNat_lt
      rw [base64Quanta, base64Value_base64Char _ (by omega), base64Value_base64Char _ (by omega),
        base64Value_base64Char _ (by omega), base64Value_base64Char _ (by omega), ih]
      show some (UInt8.ofNat _ :: UInt8.ofNat _ :: UInt8.ofNat _ :: rest) = _
      rw [ofNat_eq (a := a) (by omega), ofNat_eq (a := b) (by omega), ofNat_eq (a := c) (by omega)]

/-- No end of a line is encoded. -/
theorem base64Encode_no_eol (x : List UInt8) : ∀ c ∈ base64Encode x, c ≠ 10 ∧ c ≠ 13 := by
  fun_induction base64Encode x with
  | case1 => simp
  | case2 a =>
      have ha := a.toNat_lt
      simp only [List.forall_mem_cons]
      exact ⟨base64Char_ne_eol _ (by omega), base64Char_ne_eol _ (by omega), by simp⟩
  | case3 a b =>
      have ha := a.toNat_lt
      have hb := b.toNat_lt
      simp only [List.forall_mem_cons]
      exact ⟨base64Char_ne_eol _ (by omega), base64Char_ne_eol _ (by omega),
        base64Char_ne_eol _ (by omega), by simp⟩
  | case4 a b c rest ih =>
      have ha := a.toNat_lt
      have hb := b.toNat_lt
      have hc := c.toNat_lt
      simp only [List.forall_mem_cons]
      exact ⟨base64Char_ne_eol _ (by omega), base64Char_ne_eol _ (by omega),
        base64Char_ne_eol _ (by omega), base64Char_ne_eol _ (by omega), ih⟩

/-- **What is encoded is decoded again.** -/
theorem base64Decode_base64Encode (x : List UInt8) : base64Decode (base64Encode x) = some x := by
  have hfilter : (base64Encode x).filter (fun c => c ≠ 10 ∧ c ≠ 13) = base64Encode x := by
    apply List.filter_eq_self.mpr
    intro c hc
    simpa using base64Encode_no_eol x c hc
  rw [base64Decode, hfilter, base64Quanta_base64Encode]

/-- **A name that is encoded is listed as it is.** -/
theorem decodeFingerName_encodeFingerName (finger : List UInt8) :
    decodeFingerName (encodeFingerName finger) = finger := by
  rw [decodeFingerName, encodeFingerName, if_pos (List.prefix_append ..)]
  dsimp only
  rw [List.drop_left, base64Decode_base64Encode, Option.getD_some]

/-! ## The directory -/

/-- Source: Go's `os.FileInfo`; and whether a directory has no files. -/
structure FileInfo where
  modTime : ℤ
  isDir : Bool
  isEmpty : Bool

/-- What a directory holds, by the names. -/
abbrev DirContent := GoMap (List UInt8) FileInfo

/-- The name of a file in the directory itself. -/
def childName (dir p : List UInt8) : Option (List UInt8) :=
  if dir ++ [slash] <+: p then
    let name := p.drop (dir.length + 1)
    if IsName name then some name else none
  else none

/-- What is answered of other paths than those of the user's directory: whether they are there, why
nothing is removed, and what is moved away from there. -/
structure Elsewhere where
  stat : List UInt8 → Option OsError
  remove : List UInt8 → Option OsError
  rename : List UInt8 → Except OsError FileInfo

/-- A file is removed, or a directory that is empty. -/
def removeEntry (c : DirContent) (k : List UInt8) : DirContent × Option OsError :=
  match c.lookup k with
  | none => (c, some .notExist)
  | some info =>
      if info.isDir && !info.isEmpty then (c, some (.other "directory not empty"))
      else (c.erase k, none)

/-- What is moved gets the name `k`, and replaces a file; `rest` is what is left without it. -/
def putEntry (c rest : DirContent) (k : List UInt8) (info : FileInfo) :
    DirContent × Option OsError :=
  match c.lookup k with
  | none => (rest.insert k info, none)
  | some old =>
      if old.isDir then (c, some .exist)
      else if info.isDir then (c, some (.other "not a directory"))
      else (rest.insert k info, none)

/-- The file system, as far as it is the directory; nothing is moved out of it. -/
def dirOs (dir : List UInt8) (env : Elsewhere) : Os DirContent where
  mkdirAll c _ := (c, none)
  mkdir c _ := (c, some .exist)
  stat c p :=
    match childName dir p with
    | some k => if k ∈ c then none else some .notExist
    | none => env.stat p
  remove c p :=
    match childName dir p with
    | some k => removeEntry c k
    | none => (c, env.remove p)
  rename c p q :=
    match childName dir q with
    | none => (c, some (.other "outside of the directory"))
    | some k' =>
        match childName dir p with
        | some k =>
            match c.lookup k with
            | none => (c, some .notExist)
            | some info => putEntry c (c.erase k) k' info
        | none =>
            match env.rename p with
            | .error err => (c, some err)
            | .ok info => putEntry c c k' info

/-- The names of the files. Source: `huaweiDevice.listFingers`, its loop. -/
def fingerNames (fileInfoList : List (Σ _ : List UInt8, FileInfo)) : List (List UInt8) :=
  (fileInfoList.filter fun e => !e.2.isDir).map fun e => decodeFingerName e.1

/-- What a listing may return: the files by their times, those of one time in any order.
Source: `huaweiDevice.listFingers`. -/
def ListFingers (c : DirContent) (result : List (List UInt8)) : Prop :=
  ∃ fileInfoList : List (Σ _ : List UInt8, FileInfo), c.Ranges fileInfoList ∧
    fileInfoList.Pairwise (fun e e' => e.2.modTime ≤ e'.2.modTime) ∧
    result = fingerNames fileInfoList

/-! ## What is to hold -/

/-- A file that is listed under a name. -/
def IsFinger (c : DirContent) (k : List UInt8) (info : FileInfo) (name : List UInt8) : Prop :=
  c.lookup k = some info ∧ info.isDir = false ∧ decodeFingerName k = name

/-- The name is listed. -/
def Listed (c : DirContent) (name : List UInt8) : Prop := ∃ k info, IsFinger c k info name

/-- The directory of a user after a deletion. -/
def afterDelete (env : Elsewhere) (u : UserInfo) (c : DirContent) (name : List UInt8)
    (reload : Except String ℤ) : Done DirContent :=
  HuaweiDevice.deleteFinger (dirOs (userDir u.uuid) env) c u name reload

/-- The directory of a user after a renaming. -/
def afterRename (env : Elsewhere) (u : UserInfo) (c : DirContent) (name newName : List UInt8)
    (reload : Except String ℤ) : Done DirContent :=
  HuaweiDevice.renameFinger (dirOs (userDir u.uuid) env) c u name newName reload

/-- **The names are consistent**: by a listed name one file that is listed under it is taken away,
or has the new name, and the listing has one name less, or another. A name that is not listed is
refused, and changes nothing. -/
structure Consistent (env : Elsewhere) (u : UserInfo) (c : DirContent) (name newName : List UInt8)
    (reload : Except String ℤ) : Prop where
  deletes : ∀ res, ListFingers c res → name ∈ res →
    (∃ k info, IsFinger c k info name ∧
      (afterDelete env u c name reload).fs.lookup k = none) ∧
    ∀ res', ListFingers (afterDelete env u c name reload).fs res' → res'.Perm (res.erase name)
  renames : ∀ res, ListFingers c res → name ∈ res → newName ∉ res →
    (∃ k info, IsFinger c k info name ∧
      (afterRename env u c name newName reload).fs.lookup k = none ∧
      (afterRename env u c name newName reload).fs.lookup (encodeFingerName newName) = some info) ∧
    ∀ res', ListFingers (afterRename env u c name newName reload).fs res' →
      res'.Perm (newName :: res.erase name)
  refusesDeletion : ∀ res, ListFingers c res → name ∉ res →
    (afterDelete env u c name reload).err = some .notFoundFinger ∧
      (afterDelete env u c name reload).fs = c
  refusesRenaming : ∀ res, ListFingers c res → name ∉ res → newName ∉ res →
    (afterRename env u c name newName reload).err = some .notFoundFinger ∧
      (afterRename env u c name newName reload).fs = c

/-- The file that a name leads to: that of the encoded name, or else that of the plain one, where
this is a file in the directory. -/
def target (dir : List UInt8) (c : DirContent) (name : List UInt8) : Option (List UInt8) :=
  if encodeFingerName name ∈ c then some (encodeFingerName name)
  else childName dir (join [dir, name])

/-- The name leads to a file that is listed under it. -/
def Found (dir : List UInt8) (c : DirContent) (name : List UInt8) : Prop :=
  ∃ k info, target dir c name = some k ∧ IsFinger c k info name

/-- The name leads to nothing: there is no file of the encoded name, and none of the plain name, in
the directory or `elsewhere`. -/
def Missing (dir : List UInt8) (c : DirContent) (name : List UInt8) (elsewhere : Prop) : Prop :=
  encodeFingerName name ∉ c ∧
    match childName dir (join [dir, name]) with
    | some k => k ∉ c
    | none => elsewhere

/-- A listed name leads to its file, and one that is not listed to nothing; nothing has the file
name of a new name that is not listed. -/
def NamesFit (env : Elsewhere) (dir : List UInt8) (c : DirContent) (name newName : List UInt8) :
    Prop :=
  (Listed c name → Found dir c name ∧ (¬ Listed c newName → encodeFingerName newName ∉ c)) ∧
    (¬ Listed c name → Missing dir c name (env.remove (join [dir, name]) = some .notExist) ∧
      (¬ Listed c newName → encodeFingerName newName ∉ c ∧
        Missing dir c name (env.rename (join [dir, name]) = .error .notExist)))

/-! ## What is listed -/

variable {c : DirContent} {k name newName : List UInt8} {info : FileInfo}
  {res res' : List (List UInt8)}

theorem fingerNames_perm {es es' : List (Σ _ : List UInt8, FileInfo)} (h : es.Perm es') :
    (fingerNames es).Perm (fingerNames es') := (h.filter _).map _

theorem fingerNames_cons_file (h : info.isDir = false)
    (es : List (Σ _ : List UInt8, FileInfo)) :
    fingerNames (⟨k, info⟩ :: es) = decodeFingerName k :: fingerNames es := by
  rw [fingerNames, List.filter_cons_of_pos (by simp [h])]
  rfl

/-- Some listing there is. -/
theorem exists_listFingers (c : DirContent) : ∃ res, ListFingers c res := by
  refine ⟨_, c.entries.mergeSort fun e e' => e.2.modTime ≤ e'.2.modTime,
    List.mergeSort_perm .., ?_, rfl⟩
  have hsorted : (c.entries.mergeSort fun e e' => e.2.modTime ≤ e'.2.modTime).Pairwise
      fun e e' => decide (e.2.modTime ≤ e'.2.modTime) = true := by
    apply List.pairwise_mergeSort
    · intro e₁ e₂ e₃ h₁ h₂
      simp only [decide_eq_true_eq] at h₁ h₂ ⊢
      exact Int.le_trans h₁ h₂
    · intro e₁ e₂
      simpa using Int.le_total e₁.2.modTime e₂.2.modTime
  simpa using hsorted

/-- Whatever the order, these names are listed. -/
theorem perm_listFingers (h : ListFingers c res) : res.Perm (fingerNames c.entries) := by
  obtain ⟨es, hes, -, rfl⟩ := h
  exact fingerNames_perm hes

theorem mem_listFingers (h : ListFingers c res) : name ∈ res ↔ Listed c name := by
  rw [(perm_listFingers h).mem_iff, fingerNames, List.mem_map]
  constructor
  · rintro ⟨⟨k, info⟩, he, rfl⟩
    rw [List.mem_filter] at he
    exact ⟨k, info, AList.mem_lookup_iff.mpr he.1, by simpa using he.2, rfl⟩
  · rintro ⟨k, info, hk, hfile, rfl⟩
    exact ⟨⟨k, info⟩, List.mem_filter.mpr ⟨AList.mem_lookup_iff.mp hk, by simpa using hfile⟩, rfl⟩

/-- The other names, where one file is taken away. -/
theorem perm_fingerNames_erase (hk : IsFinger c k info name) (h : ListFingers c res) :
    (fingerNames (c.erase k).entries).Perm (res.erase name) := by
  obtain ⟨hlook, hfile, rfl⟩ := hk
  have hall : (decodeFingerName k :: fingerNames (c.erase k).entries).Perm res := by
    rw [← fingerNames_cons_file hfile]
    exact (fingerNames_perm (perm_cons_erase hlook)).symm.trans (perm_listFingers h).symm
  simpa using hall.erase (decodeFingerName k)

/-- **One file less** is one name less. -/
theorem perm_of_erase (hk : IsFinger c k info name) (h : ListFingers c res)
    (h' : ListFingers (c.erase k) res') : res'.Perm (res.erase name) :=
  (perm_listFingers h').trans (perm_fingerNames_erase hk h)

/-- **Another name of a file** is another name. -/
theorem perm_of_rename (hk : IsFinger c k info name) (hnew : encodeFingerName newName ∉ c)
    (h : ListFingers c res)
    (h' : ListFingers ((c.erase k).insert (encodeFingerName newName) info) res') :
    res'.Perm (newName :: res.erase name) := by
  have hnot : encodeFingerName newName ∉ c.erase k := fun hmem => hnew (AList.mem_erase.mp hmem).2
  have hnames := perm_listFingers h'
  rw [AList.entries_insert_of_notMem hnot, fingerNames_cons_file hk.2.1,
    decodeFingerName_encodeFingerName] at hnames
  exact hnames.trans ((perm_fingerNames_erase hk h).cons newName)

/-- A file of the encoded name is listed under it. -/
theorem isFinger_encodeFingerName (h : c.lookup (encodeFingerName name) = some info)
    (hfile : info.isDir = false) : IsFinger c (encodeFingerName name) info name :=
  ⟨h, hfile, decodeFingerName_encodeFingerName name⟩

/-! ## What a deletion and a renaming leave -/

variable {env : Elsewhere} {u : UserInfo} {dir : List UInt8} {reload : Except String ℤ}

/-- A file behind a directory is known by its name. -/
theorem childName_append (h : IsName name) : childName dir (dir ++ slash :: name) = some name := by
  have hpre : dir ++ [slash] <+: dir ++ slash :: name := ⟨name, by simp⟩
  have hdrop : (dir ++ slash :: name).drop (dir.length + 1) = name := by
    rw [List.drop_append]
    simp
  rw [childName, if_pos hpre]
  dsimp only
  rw [hdrop, if_pos h]

theorem childName_encoded (u : UserInfo) (name : List UInt8) :
    childName (userDir u.uuid) (join [userDir u.uuid, encodeFingerName name]) =
      some (encodeFingerName name) := by
  have hjoin : join [userDir u.uuid, encodeFingerName name] =
      userDir u.uuid ++ slash :: encodeFingerName name := by
    rw [userDir_eq u]
    exact join_name (userDir_elems u).1 (userDir_elems u).2 (isName_encodeFingerName name)
  rw [hjoin, childName_append (isName_encodeFingerName name)]

/-- The directory is there. -/
theorem ensure_dirOs (c : DirContent) (uuid : List UInt8) :
    ensureHuaweiFprintDir (dirOs dir env) c uuid = (c, .ok (userDir uuid)) := rfl

theorem remove_encoded (c : DirContent) (name : List UInt8) :
    (dirOs (userDir u.uuid) env).remove c (join [userDir u.uuid, encodeFingerName name]) =
      removeEntry c (encodeFingerName name) := by
  simp only [dirOs, childName_encoded]

/-- What a removal leaves. -/
theorem removeEntry_fst (c : DirContent) (k : List UInt8) :
    (removeEntry c k).1 = c ∨
      (∃ info, c.lookup k = some info) ∧ (removeEntry c k).1 = c.erase k := by
  unfold removeEntry
  split
  · exact Or.inl rfl
  · next info hk =>
      split_ifs
      · exact Or.inl rfl
      · exact Or.inr ⟨⟨info, hk⟩, rfl⟩

theorem removeEntry_of_notMem (h : k ∉ c) : removeEntry c k = (c, some .notExist) := by
  rw [removeEntry, AList.lookup_eq_none.mpr h]

theorem removeEntry_ne_notExist (h : k ∈ c) : (removeEntry c k).2 ≠ some .notExist := by
  obtain ⟨info, hk⟩ := Option.isSome_iff_exists.mp (AList.lookup_isSome.mpr h)
  rw [removeEntry, hk]
  dsimp only
  split_ifs
  · simp
  · simp

theorem removeEntry_of_file (hk : c.lookup k = some info) (hfile : info.isDir = false) :
    removeEntry c k = (c.erase k, none) := by
  rw [removeEntry, hk]
  simp [hfile]

/-- Nothing is loaded anew with this error. -/
theorem reloadError_ne (reload : Except String ℤ) : reloadError reload ≠ some .notFoundFinger := by
  rcases reload with msg | ret
  · simp [reloadError]
  · simp only [reloadError]
    split_ifs <;> simp

/-- **What a deletion leaves**: the directory without the file that the name leads to, if that is
removed. -/
theorem fs_afterDelete (env : Elsewhere) (u : UserInfo) (c : DirContent) (name : List UInt8)
    (reload : Except String ℤ) : (afterDelete env u c name reload).fs =
      match target (userDir u.uuid) c name with
      | some k => (removeEntry c k).1
      | none => c := by
  unfold afterDelete HuaweiDevice.deleteFinger target
  simp only [ensure_dirOs, remove_encoded]
  by_cases hmem : encodeFingerName name ∈ c
  · rw [if_pos hmem]
    have hne := removeEntry_ne_notExist hmem
    dsimp only
    rcases hr : removeEntry c (encodeFingerName name) with ⟨c', _ | _ | _ | msg⟩
    · rfl
    · rw [hr] at hne
      exact absurd rfl hne
    · rfl
    · rfl
  · rw [if_neg hmem, removeEntry_of_notMem hmem]
    simp only [dirOs]
    rcases childName (userDir u.uuid) (join [userDir u.uuid, name]) with _ | k
    · rcases env.remove (join [userDir u.uuid, name]) with _ | _ | _ | msg <;> rfl
    · dsimp only
      rcases removeEntry c k with ⟨c', _ | _ | _ | msg⟩ <;> rfl

/-- **When a deletion finds nothing.** -/
theorem err_afterDelete (env : Elsewhere) (u : UserInfo) (c : DirContent) (name : List UInt8)
    (reload : Except String ℤ) : (afterDelete env u c name reload).err = some .notFoundFinger ↔
      Missing (userDir u.uuid) c name
        (env.remove (join [userDir u.uuid, name]) = some .notExist) := by
  unfold afterDelete HuaweiDevice.deleteFinger Missing
  simp only [ensure_dirOs, remove_encoded]
  by_cases hmem : encodeFingerName name ∈ c
  · refine iff_of_false ?_ (fun h => h.1 hmem)
    have hne := removeEntry_ne_notExist hmem
    rcases hr : removeEntry c (encodeFingerName name) with ⟨c', _ | _ | _ | msg⟩
    · exact reloadError_ne reload
    · rw [hr] at hne
      exact absurd rfl hne
    · simp
    · simp
  · rw [removeEntry_of_notMem hmem]
    simp only [dirOs, hmem, not_false_eq_true, true_and]
    rcases childName (userDir u.uuid) (join [userDir u.uuid, name]) with _ | k
    · dsimp only
      rcases env.remove (join [userDir u.uuid, name]) with _ | _ | _ | msg <;> simp
    · dsimp only
      by_cases hk : k ∈ c
      · have hne := removeEntry_ne_notExist hk
        rcases hr : removeEntry c k with ⟨c', _ | _ | _ | msg⟩
        · simp [hk]
        · rw [hr] at hne
          exact absurd rfl hne
        · simp [hk]
        · simp [hk]
      · rw [removeEntry_of_notMem hk]
        simp [hk]

/-- What a renaming answers of a file in the directory, with nothing at the new name. -/
theorem rename_child {p : List UInt8} (hnew : encodeFingerName newName ∉ c)
    (hp : childName (userDir u.uuid) p = some k) :
    (dirOs (userDir u.uuid) env).rename c p
        (join [userDir u.uuid, encodeFingerName newName]) =
      match c.lookup k with
      | none => (c, some .notExist)
      | some info => ((c.erase k).insert (encodeFingerName newName) info, none) := by
  simp only [dirOs, childName_encoded, hp, putEntry, AList.lookup_eq_none.mpr hnew]

/-- What it answers of another path. -/
theorem rename_elsewhere {p : List UInt8} (hnew : encodeFingerName newName ∉ c)
    (hp : childName (userDir u.uuid) p = none) :
    (dirOs (userDir u.uuid) env).rename c p
        (join [userDir u.uuid, encodeFingerName newName]) =
      match env.rename p with
      | .error err => (c, some err)
      | .ok info => (c.insert (encodeFingerName newName) info, none) := by
  simp only [dirOs, childName_encoded, hp, putEntry, AList.lookup_eq_none.mpr hnew]

/-- Whether something stands at the new name. -/
theorem stat_encoded (c : DirContent) (name : List UInt8) :
    (dirOs (userDir u.uuid) env).stat c (join [userDir u.uuid, encodeFingerName name]) =
      if encodeFingerName name ∈ c then none else some .notExist := by
  simp only [dirOs, childName_encoded]

/-- **Something stands at the new name**: nothing is renamed. -/
theorem afterRename_of_mem (h : encodeFingerName newName ∈ c) :
    afterRename env u c name newName reload = ⟨c, [], some (.exists newName)⟩ := by
  unfold afterRename HuaweiDevice.renameFinger
  simp only [ensure_dirOs, stat_encoded, if_pos h]

/-- **What a renaming leaves**, where nothing stands at the new name. -/
theorem fs_afterRename (hnew : encodeFingerName newName ∉ c) :
    (afterRename env u c name newName reload).fs =
      match target (userDir u.uuid) c name with
      | some k => ((c.lookup k).map fun info =>
          (c.erase k).insert (encodeFingerName newName) info).getD c
      | none => ((env.rename (join [userDir u.uuid, name])).toOption.map fun info =>
          c.insert (encodeFingerName newName) info).getD c := by
  unfold afterRename HuaweiDevice.renameFinger target
  simp only [ensure_dirOs, stat_encoded, if_neg hnew, rename_child hnew (childName_encoded u name)]
  by_cases hmem : encodeFingerName name ∈ c
  · obtain ⟨info, hk⟩ := Option.isSome_iff_exists.mp (AList.lookup_isSome.mpr hmem)
    simp only [if_pos hmem, hk]
    rfl
  · simp only [if_neg hmem, AList.lookup_eq_none.mpr hmem]
    rcases hp : childName (userDir u.uuid) (join [userDir u.uuid, name]) with _ | k
    · rw [rename_elsewhere hnew hp]
      rcases env.rename (join [userDir u.uuid, name]) with (_ | _ | msg) | info <;> rfl
    · rw [rename_child hnew hp]
      dsimp only
      rcases c.lookup k with _ | info <;> rfl

/-- **When a renaming finds nothing**, where nothing stands at the new name. -/
theorem err_afterRename (hnew : encodeFingerName newName ∉ c) :
    (afterRename env u c name newName reload).err = some .notFoundFinger ↔
      Missing (userDir u.uuid) c name
        (env.rename (join [userDir u.uuid, name]) = .error .notExist) := by
  unfold afterRename HuaweiDevice.renameFinger Missing
  simp only [ensure_dirOs, stat_encoded, if_neg hnew, rename_child hnew (childName_encoded u name)]
  by_cases hmem : encodeFingerName name ∈ c
  · obtain ⟨info, hk⟩ := Option.isSome_iff_exists.mp (AList.lookup_isSome.mpr hmem)
    simp only [hk]
    exact iff_of_false (reloadError_ne reload) (fun h => h.1 hmem)
  · simp only [AList.lookup_eq_none.mpr hmem, hmem, not_false_eq_true, true_and]
    rcases hp : childName (userDir u.uuid) (join [userDir u.uuid, name]) with _ | k
    · rw [rename_elsewhere hnew hp]
      rcases env.rename (join [userDir u.uuid, name]) with (_ | _ | msg) | info <;> simp
    · rw [rename_child hnew hp]
      dsimp only
      rw [← AList.lookup_eq_none]
      rcases c.lookup k with _ | info <;> simp

/-! ## Listed names, and others -/

/-- **The deletion of a listed name** takes its file away exactly if the name leads there. -/
theorem deletes_iff (h : ListFingers c res) :
    ((∃ k info, IsFinger c k info name ∧ (afterDelete env u c name reload).fs.lookup k = none) ∧
      ∀ res', ListFingers (afterDelete env u c name reload).fs res' →
        res'.Perm (res.erase name)) ↔ Found (userDir u.uuid) c name := by
  rw [fs_afterDelete]
  constructor
  · rintro ⟨⟨k, info, hk, hgone⟩, -⟩
    have hkept : ¬ c.lookup k = none := by
      rw [hk.1]
      simp
    rcases htarget : target (userDir u.uuid) c name with _ | k₀
    · rw [htarget] at hgone
      exact absurd hgone hkept
    · rw [htarget] at hgone
      dsimp only at hgone
      obtain heq | ⟨-, heq⟩ := removeEntry_fst c k₀
      · rw [heq] at hgone
        exact absurd hgone hkept
      · rw [heq] at hgone
        by_cases hne : k = k₀
        · exact ⟨k₀, info, htarget, hne ▸ hk⟩
        · rw [AList.lookup_erase_ne hne] at hgone
          exact absurd hgone hkept
  · rintro ⟨k, info, htarget, hk⟩
    simp only [htarget, removeEntry_of_file hk.1 hk.2.1]
    exact ⟨⟨k, info, hk, AList.lookup_erase _ _⟩, fun res' h' => perm_of_erase hk h h'⟩

/-- **The renaming of a listed name** gives its file the new name exactly if the name leads
there. -/
theorem renames_iff (h : ListFingers c res) (hnew : encodeFingerName newName ∉ c) :
    ((∃ k info, IsFinger c k info name ∧
        (afterRename env u c name newName reload).fs.lookup k = none ∧
        (afterRename env u c name newName reload).fs.lookup (encodeFingerName newName) =
          some info) ∧
      ∀ res', ListFingers (afterRename env u c name newName reload).fs res' →
        res'.Perm (newName :: res.erase name)) ↔ Found (userDir u.uuid) c name := by
  rw [fs_afterRename hnew]
  constructor
  · rintro ⟨⟨k, info, hk, hgone, -⟩, -⟩
    have hkept : ¬ c.lookup k = none := by
      rw [hk.1]
      simp
    have hne : k ≠ encodeFingerName newName := by
      rintro rfl
      exact hkept (AList.lookup_eq_none.mpr hnew)
    rcases htarget : target (userDir u.uuid) c name with _ | k₀
    · simp only [htarget] at hgone
      rcases hmoved : env.rename (join [userDir u.uuid, name]) with err | moved
      · rw [hmoved] at hgone
        exact absurd hgone hkept
      · rw [hmoved] at hgone
        exact absurd ((AList.lookup_insert_ne hne).symm.trans hgone) hkept
    · simp only [htarget] at hgone
      rcases hk₀ : c.lookup k₀ with _ | info₀
      · rw [hk₀] at hgone
        exact absurd hgone hkept
      · rw [hk₀] at hgone
        replace hgone := (AList.lookup_insert_ne hne).symm.trans hgone
        by_cases heq : k = k₀
        · exact ⟨k₀, info, htarget, heq ▸ hk⟩
        · rw [AList.lookup_erase_ne heq] at hgone
          exact absurd hgone hkept
  · rintro ⟨k, info, htarget, hk⟩
    have hne : k ≠ encodeFingerName newName := by
      rintro rfl
      exact hnew (AList.lookup_isSome.mp (by rw [hk.1]; rfl))
    simp only [htarget, hk.1, Option.map_some, Option.getD_some]
    refine ⟨⟨k, info, hk, ?_, AList.lookup_insert _⟩, fun res' h' => perm_of_rename hk hnew h h'⟩
    rw [AList.lookup_insert_ne hne]
    exact AList.lookup_erase _ _

/-- **The deletion of another name** is refused exactly if the name leads to nothing. -/
theorem refusesDeletion_iff :
    (afterDelete env u c name reload).err = some .notFoundFinger ∧
        (afterDelete env u c name reload).fs = c ↔
      Missing (userDir u.uuid) c name
        (env.remove (join [userDir u.uuid, name]) = some .notExist) := by
  rw [err_afterDelete, fs_afterDelete, and_iff_left_iff_imp]
  rintro ⟨hmem, hplain⟩
  rw [target, if_neg hmem]
  rcases hp : childName (userDir u.uuid) (join [userDir u.uuid, name]) with _ | k
  · rfl
  · rw [hp] at hplain
    dsimp only
    rw [removeEntry_of_notMem hplain]

/-- **The renaming of another name** is refused exactly if the name leads to nothing. -/
theorem refusesRenaming_iff (hnew : encodeFingerName newName ∉ c) :
    (afterRename env u c name newName reload).err = some .notFoundFinger ∧
        (afterRename env u c name newName reload).fs = c ↔
      Missing (userDir u.uuid) c name
        (env.rename (join [userDir u.uuid, name]) = .error .notExist) := by
  rw [err_afterRename hnew, fs_afterRename hnew, and_iff_left_iff_imp]
  rintro ⟨hmem, hplain⟩
  rw [target, if_neg hmem]
  rcases hp : childName (userDir u.uuid) (join [userDir u.uuid, name]) with _ | k
  · rw [hp] at hplain
    dsimp only at hplain ⊢
    rw [hplain]
    rfl
  · rw [hp] at hplain
    dsimp only
    rw [AList.lookup_eq_none.mpr hplain]
    rfl

/-- The files that the device and its earlier version leave: of encoded names, or of plain names
without the prefix. -/
def Regular (c : DirContent) : Prop := ∀ k info, c.lookup k = some info → info.isDir = false ∧
  ((∃ name, k = encodeFingerName name) ∨ IsName k ∧ ¬ encodePrefix <+: k)

/-- **Among such files every listed name leads to its file.** -/
theorem found_of_regular (h : Regular c) (hname : Listed c name) :
    Found (userDir u.uuid) c name := by
  have hencoded : encodeFingerName name ∈ c → Found (userDir u.uuid) c name := by
    intro hmem
    obtain ⟨info, hk⟩ := Option.isSome_iff_exists.mp (AList.lookup_isSome.mpr hmem)
    exact ⟨_, info, if_pos hmem, isFinger_encodeFingerName hk (h _ info hk).1⟩
  by_cases hmem : encodeFingerName name ∈ c
  · exact hencoded hmem
  · obtain ⟨k, info, hk, hfile, hdecoded⟩ := hname
    obtain ⟨name', rfl⟩ | ⟨hkname, hprefix⟩ := (h k info hk).2
    · rw [decodeFingerName_encodeFingerName] at hdecoded
      exact absurd (AList.lookup_isSome.mp (by rw [← hdecoded, hk]; rfl)) hmem
    · have hplain : k = name := by rwa [decodeFingerName, if_neg hprefix] at hdecoded
      have hjoin : join [userDir u.uuid, name] = userDir u.uuid ++ slash :: name := by
        rw [userDir_eq u]
        exact join_name (userDir_elems u).1 (userDir_elems u).2 (hplain ▸ hkname)
      refine ⟨k, info, ?_, hk, hfile, hdecoded⟩
      rw [target, if_neg hmem, hjoin, childName_append (hplain ▸ hkname), hplain]

/-- **Names are consistent across listing, deletion and renaming**, for every content of the
directory, exactly if what is listed is found by its name, what is not listed is not, and nothing
has the file name of a new name that is not listed. Among regular files what is listed is found. -/
theorem names_consistent_iff (env : Elsewhere) (u : UserInfo) (c : DirContent)
    (name newName : List UInt8) (reload : Except String ℤ) :
    (Consistent env u c name newName reload ↔ NamesFit env (userDir u.uuid) c name newName) ∧
    (Regular c → Listed c name → Found (userDir u.uuid) c name) := by
  refine ⟨?_, fun h hname => found_of_regular h hname⟩
  constructor
  · intro h
    obtain ⟨res, hres⟩ := exists_listFingers c
    have hname : name ∈ res ↔ Listed c name := mem_listFingers hres
    have hnewName : newName ∈ res ↔ Listed c newName := mem_listFingers hres
    constructor
    · intro hlisted
      refine ⟨(deletes_iff hres).mp (h.deletes res hres (hname.mpr hlisted)), ?_⟩
      intro hunlisted hmem
      obtain ⟨⟨k, info, hk, hgone, -⟩, -⟩ := h.renames res hres (hname.mpr hlisted)
        (mt hnewName.mp hunlisted)
      rw [afterRename_of_mem hmem] at hgone
      rw [hk.1] at hgone
      cases hgone
    · intro hlisted
      refine ⟨refusesDeletion_iff.mp (h.refusesDeletion res hres (mt hname.mp hlisted)), ?_⟩
      intro hunlisted
      have hrefused := h.refusesRenaming res hres (mt hname.mp hlisted) (mt hnewName.mp hunlisted)
      have hnew : encodeFingerName newName ∉ c := by
        intro hmem
        rw [afterRename_of_mem hmem] at hrefused
        cases hrefused.1
      exact ⟨hnew, (refusesRenaming_iff hnew).mp hrefused⟩
  · rintro ⟨hfound, hmissing⟩
    constructor
    · intro res hres hmem
      exact (deletes_iff hres).mpr (hfound ((mem_listFingers hres).mp hmem)).1
    · intro res hres hmem hnot
      obtain ⟨hf, hnew⟩ := hfound ((mem_listFingers hres).mp hmem)
      exact (renames_iff hres (hnew (mt (mem_listFingers hres).mpr hnot))).mpr hf
    · intro res hres hnot
      exact refusesDeletion_iff.mpr (hmissing (mt (mem_listFingers hres).mpr hnot)).1
    · intro res hres hnot hnotNew
      obtain ⟨hnew, hmiss⟩ := (hmissing (mt (mem_listFingers hres).mpr hnot)).2
        (mt (mem_listFingers hres).mpr hnotNew)
      exact (refusesRenaming_iff hnew).mpr hmiss

/-- A file that has the prefix, and cannot be decoded. -/
def prefixedFile : DirContent := AList.singleton (bytes "b64:!") ⟨0, false, false⟩

/-- Nothing is elsewhere. -/
def nowhere : Elsewhere :=
  ⟨fun _ => some .notExist, fun _ => some .notExist, fun _ => .error .notExist⟩

/-- **A finger that is listed and not found**: it is listed without the prefix. -/
theorem prefixed_finger_not_found : ¬ ∀ (env : Elsewhere) (u : UserInfo) (c : DirContent)
    (name newName : List UInt8) (reload : Except String ℤ),
    Consistent env u c name newName reload := by
  intro h
  obtain ⟨res, hres⟩ := exists_listFingers prefixedFile
  have hlisted : Listed prefixedFile (bytes "!") := ⟨bytes "b64:!", _, rfl, rfl, by decide⟩
  have hdeleted := (h nowhere ⟨"alice", bytes "1000", by decide⟩ prefixedFile (bytes "!") []
    (.ok 0)).deletes res hres ((mem_listFingers hres).mpr hlisted)
  obtain ⟨k, info, htarget, hk⟩ := (deletes_iff hres).mp hdeleted
  have hplain : target (userDir (bytes "1000")) prefixedFile (bytes "!") = some (bytes "!") := by
    decide
  have hnone : prefixedFile.lookup (bytes "!") = none := by decide
  rw [Option.some.inj (hplain.symm.trans htarget).symm] at hk
  cases hnone.symm.trans hk.1

end LingmoAuthenticate.Fingerprint
