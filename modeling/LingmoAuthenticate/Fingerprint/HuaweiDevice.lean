import Mathlib.Data.Int.Notation
import LingmoAuthenticate.Lib.Path

/-!
# The files of the fingerprints: `huawei_device.go`

A Huawei device keeps a file for each finger, in a directory for each user. The name of the file is
that of the finger in base64; a file with the plain name, from an earlier version, is taken where
there is none. The file system is a parameter: its content is a state, and each call answers and
changes it. Names and paths are bytes.

* `deleteFinger`, `renameFinger`: the calls of the manager, with the paths that they have removed,
  or renamed from and to.
* `isName_encodeFingerName`: what is encoded is always the name of a file in the directory.
* `fingers_confined_iff`: every path that is touched is that of a file in the directory of the user,
  exactly if a plain name that is tried and found is one.
-/

namespace LingmoAuthenticate.Fingerprint

open Lib Lib.Path

/-- How a call on the file system fails. -/
inductive OsError where
  | notExist
  | exist
  | other (msg : String)
  deriving DecidableEq, Repr

/-- The calls on the file system: what each of them answers, and leaves; the content is of any type.
Source: Go's `os`. -/
structure Os (σ : Type*) where
  mkdirAll : σ → List UInt8 → σ × Option OsError
  mkdir : σ → List UInt8 → σ × Option OsError
  stat : σ → List UInt8 → Option OsError
  remove : σ → List UInt8 → σ × Option OsError
  rename : σ → List UInt8 → List UInt8 → σ × Option OsError

/-- How the calls of the manager fail: the caller may not make them, there is no such device, user
or finger, a name stays the same or is taken, the file system refuses, or the engine cannot
reload. -/
inductive FingerError where
  | auth (msg : String)
  | notFoundDevice
  | userInfo (msg : String)
  | notChanged
  | os (err : OsError)
  | notFoundFinger
  | exists (newName : List UInt8)
  | reload (msg : String)
  | failedToReload
  deriving DecidableEq, Repr

/-- Source: `fingerprint/device.go`, `UserInfo`; a uuid is a single element of a path. -/
structure UserInfo where
  name : String
  uuid : List UInt8
  isName : IsName uuid

/-- What a call has done: the content of the file system, the paths that were removed or renamed
from and to, and the error. -/
structure Done (σ : Type*) where
  fs : σ
  touched : List (List UInt8)
  err : Option FingerError

/-- Source: `huawei_device.go`, `HuaweiFprintDir`, element by element. -/
def huaweiFprintDirElems : List (List UInt8) :=
  [bytes "var", bytes "lib", bytes "dde-daemon", bytes "fingerprint", bytes "huawei"]

/-- Source: `huawei_device.go`, `HuaweiFprintDir`. -/
def huaweiFprintDir : List UInt8 := absolute huaweiFprintDirElems

/-- The directory of a user. -/
def userDir (uuid : List UInt8) : List UInt8 := join [huaweiFprintDir, uuid]

/-- Source: `huawei_device.go`, `encodePrefix`. -/
def encodePrefix : List UInt8 := bytes "b64:"

/-- The character of six bits. Source: Go's `base64.RawURLEncoding`. -/
def base64Char (i : ℕ) : UInt8 :=
  UInt8.ofNat <|
    if i < 26 then 65 + i else if i < 52 then 71 + i else if i < 62 then i - 4
    else if i = 62 then 45 else 95

/-- Source: Go's `base64.RawURLEncoding.EncodeToString`. -/
def base64Encode : List UInt8 → List UInt8
  | [] => []
  | [a] => [base64Char (a.toNat / 4), base64Char (a.toNat % 4 * 16)]
  | [a, b] =>
      [base64Char (a.toNat / 4), base64Char (a.toNat % 4 * 16 + b.toNat / 16),
        base64Char (b.toNat % 16 * 4)]
  | a :: b :: c :: rest =>
      base64Char (a.toNat / 4) :: base64Char (a.toNat % 4 * 16 + b.toNat / 16) ::
        base64Char (b.toNat % 16 * 4 + c.toNat / 64) :: base64Char (c.toNat % 64) ::
          base64Encode rest

/-- Source: `huawei_device.go`, `encodeFingerName`. -/
def encodeFingerName (finger : List UInt8) : List UInt8 := encodePrefix ++ base64Encode finger

section device

variable {σ : Type*} (os : Os σ)

/-- Source: `huawei_device.go`, `ensureHuaweiFprintDir`. -/
def ensureHuaweiFprintDir (fs : σ) (uuid : List UInt8) : σ × Except OsError (List UInt8) :=
  match os.mkdirAll fs huaweiFprintDir with
  | (fs, some err) => (fs, .error err)
  | (fs, none) =>
      let dir := userDir uuid
      match os.mkdir fs dir with
      | (fs, none) => (fs, .ok dir)
      | (fs, some err) => (fs, if err = .exist then .ok dir else .error err)

/-- The device is to load its files anew. -/
def reloadError (reload : Except String ℤ) : Option FingerError :=
  match reload with
  | .error msg => some (.reload msg)
  | .ok reloadRet => if reloadRet = -1 then some .failedToReload else none

/-- Source: `huawei_device.go`, `huaweiDevice.deleteFinger`. -/
def HuaweiDevice.deleteFinger (fs : σ) (userInfo : UserInfo) (finger : List UInt8)
    (reload : Except String ℤ) : Done σ :=
  match ensureHuaweiFprintDir os fs userInfo.uuid with
  | (fs, .error err) => ⟨fs, [], some (.os err)⟩
  | (fs, .ok dir) =>
      let path := join [dir, encodeFingerName finger]
      match os.remove fs path with
      | (fs, none) => ⟨fs, [path], reloadError reload⟩
      | (fs, some .notExist) =>
          let path := join [dir, finger]
          match os.remove fs path with
          | (fs, none) => ⟨fs, [path], none⟩
          | (fs, some .notExist) => ⟨fs, [], some .notFoundFinger⟩
          | (fs, some err) => ⟨fs, [], some (.os err)⟩
      | (fs, some err) => ⟨fs, [], some (.os err)⟩

/-- Source: `huawei_device.go`, `huaweiDevice.renameFinger`. -/
def HuaweiDevice.renameFinger (fs : σ) (userInfo : UserInfo) (finger newName : List UInt8)
    (reload : Except String ℤ) : Done σ :=
  match ensureHuaweiFprintDir os fs userInfo.uuid with
  | (fs, .error err) => ⟨fs, [], some (.os err)⟩
  | (fs, .ok dir) =>
      let oldPath := join [dir, encodeFingerName finger]
      let newPath := join [dir, encodeFingerName newName]
      match os.stat fs newPath with
      | none => ⟨fs, [], some (.exists newName)⟩
      | some _ =>
          match os.rename fs oldPath newPath with
          | (fs, none) => ⟨fs, [oldPath, newPath], reloadError reload⟩
          | (fs, some .notExist) =>
              let oldPath := join [dir, finger]
              match os.rename fs oldPath newPath with
              | (fs, none) => ⟨fs, [oldPath, newPath], none⟩
              | (fs, some .notExist) => ⟨fs, [], some .notFoundFinger⟩
              | (fs, some err) => ⟨fs, [], some (.os err)⟩
          | (fs, some err) => ⟨fs, [], some (.os err)⟩

/-- What the calls of the manager are answered: the authorisation, whether there is a default
device, the user, and what the device says to being loaded anew. -/
structure FingerEnv where
  auth : Option String
  hasDevice : Bool
  userInfo : Except String UserInfo
  reload : Except String ℤ

/-- The time limit on the device does not stop it. Source: `fingerprint/manager.go`,
`Manager.DeleteFinger`. -/
def deleteFinger (env : FingerEnv) (fs : σ) (finger : List UInt8) : Done σ :=
  match env.auth with
  | some msg => ⟨fs, [], some (.auth msg)⟩
  | none =>
      if env.hasDevice then
        match env.userInfo with
        | .error msg => ⟨fs, [], some (.userInfo msg)⟩
        | .ok userInfo => HuaweiDevice.deleteFinger os fs userInfo finger env.reload
      else ⟨fs, [], some .notFoundDevice⟩

/-- Source: `fingerprint/manager.go`, `Manager.RenameFinger`. -/
def renameFinger (env : FingerEnv) (fs : σ) (finger newName : List UInt8) : Done σ :=
  if finger = newName then ⟨fs, [], some .notChanged⟩
  else if env.hasDevice then
    match env.userInfo with
    | .error msg => ⟨fs, [], some (.userInfo msg)⟩
    | .ok userInfo => HuaweiDevice.renameFinger os fs userInfo finger newName env.reload
  else ⟨fs, [], some .notFoundDevice⟩

end device

/-! ## What is encoded is a name -/

/-- No character of base64 is a slash. -/
theorem base64Char_ne_slash (i : ℕ) : base64Char i ≠ slash := by
  intro h
  have hnat := congrArg UInt8.toNat h
  rw [base64Char, UInt8.toNat_ofNat'] at hnat
  have hslash : slash.toNat = 47 := rfl
  rw [hslash] at hnat
  split_ifs at hnat <;> omega

theorem slash_notMem_base64Encode (finger : List UInt8) : slash ∉ base64Encode finger := by
  fun_induction base64Encode finger <;>
    simp_all [(base64Char_ne_slash _).symm]

/-- **An encoded name is that of a file in the directory.** -/
theorem isName_encodeFingerName (finger : List UInt8) : IsName (encodeFingerName finger) := by
  have hprefix : encodePrefix = [98, 54, 52, 58] := rfl
  rw [encodeFingerName, hprefix]
  refine ⟨by simp, ?_, by simp, by simp⟩
  rw [List.mem_append, not_or]
  exact ⟨by decide, slash_notMem_base64Encode finger⟩

/-! ## The files that are touched -/

section confined

variable {σ : Type*} {os : Os σ}

/-- The directory of a user is below that of all users. -/
theorem userDir_eq (u : UserInfo) :
    userDir u.uuid = absolute (huaweiFprintDirElems ++ [u.uuid]) := by
  have hnames : ∀ c ∈ huaweiFprintDirElems, IsName c := by decide
  rw [userDir, huaweiFprintDir, join_absolute (by decide) hnames,
    List.splitOn_eq_singleton u.isName.2.1, List.foldl_cons, List.foldl_nil,
    push_name true u.isName]

/-- The elements of that directory. -/
theorem userDir_elems (u : UserInfo) :
    huaweiFprintDirElems ++ [u.uuid] ≠ [] ∧ ∀ c ∈ huaweiFprintDirElems ++ [u.uuid], IsName c := by
  have hnames : ∀ c ∈ huaweiFprintDirElems, IsName c := by decide
  refine ⟨by simp, ?_⟩
  intro c hc
  rcases List.mem_append.mp hc with hc | hc
  · exact hnames c hc
  · rw [List.mem_singleton.mp hc]
    exact u.isName

/-- The path that a name stands for, as it is encoded. -/
theorem isChild_encoded (u : UserInfo) (finger : List UInt8) :
    IsChild (userDir u.uuid) (join [userDir u.uuid, encodeFingerName finger]) := by
  rw [userDir_eq u]
  exact isChild_join_name (userDir_elems u).1 (userDir_elems u).2 (isName_encodeFingerName finger)

/-- **The plain names that are those of files in the directory**: of those without a slash, all but
the empty one, a dot and two dots. -/
theorem isChild_plain_iff (u : UserInfo) {finger : List UInt8} (h : slash ∉ finger) :
    IsChild (userDir u.uuid) (join [userDir u.uuid, finger]) ↔ IsName finger := by
  rw [userDir_eq u]
  exact isChild_join_iff (userDir_elems u).1 (userDir_elems u).2 h

/-- The directory that is made sure of is that of the user. -/
theorem ensureHuaweiFprintDir_eq {fs fs' : σ} {uuid dir : List UInt8}
    (h : ensureHuaweiFprintDir os fs uuid = (fs', .ok dir)) : dir = userDir uuid := by
  unfold ensureHuaweiFprintDir at h
  rcases hall : os.mkdirAll fs huaweiFprintDir with ⟨fs₁, _ | err⟩
  · rcases hmk : os.mkdir fs₁ (userDir uuid) with ⟨fs₂, _ | err⟩
    · simp only [hall, hmk] at h
      cases h
      rfl
    · simp only [hall, hmk] at h
      split_ifs at h <;> cases h
      rfl
  · simp only [hall] at h
    cases h

/-- Everything that was touched is a file in the directory. -/
def Confined (dir : List UInt8) (d : Done σ) : Prop := ∀ p ∈ d.touched, IsChild dir p

/-- There is no file of the encoded name, and that of the plain name is removed. -/
def RemovesPlain (os : Os σ) (fs : σ) (u : UserInfo) (finger : List UInt8) : Prop :=
  ∃ fs₁ fs₂ fs₃ dir, ensureHuaweiFprintDir os fs u.uuid = (fs₁, .ok dir) ∧
    os.remove fs₁ (join [dir, encodeFingerName finger]) = (fs₂, some .notExist) ∧
    os.remove fs₂ (join [dir, finger]) = (fs₃, none)

/-- There is no file of the encoded name, and that of the plain name is renamed. -/
def RenamesPlain (os : Os σ) (fs : σ) (u : UserInfo) (finger newName : List UInt8) : Prop :=
  ∃ fs₁ fs₂ fs₃ dir err, ensureHuaweiFprintDir os fs u.uuid = (fs₁, .ok dir) ∧
    os.stat fs₁ (join [dir, encodeFingerName newName]) = some err ∧
    os.rename fs₁ (join [dir, encodeFingerName finger]) (join [dir, encodeFingerName newName]) =
      (fs₂, some .notExist) ∧
    os.rename fs₂ (join [dir, finger]) (join [dir, encodeFingerName newName]) = (fs₃, none)

/-- What deleting a finger touches. -/
theorem deleteFinger_confined_iff (fs : σ) (u : UserInfo) (finger : List UInt8)
    (reload : Except String ℤ) :
    Confined (userDir u.uuid) (HuaweiDevice.deleteFinger os fs u finger reload) ↔
      (RemovesPlain os fs u finger → IsChild (userDir u.uuid) (join [userDir u.uuid, finger])) := by
  have hencoded := isChild_encoded u finger
  unfold HuaweiDevice.deleteFinger RemovesPlain Confined
  rcases hens : ensureHuaweiFprintDir os fs u.uuid with ⟨fs₁, err | dir⟩
  · simp
  · obtain rfl := ensureHuaweiFprintDir_eq hens
    rcases hrem : os.remove fs₁ (join [userDir u.uuid, encodeFingerName finger])
      with ⟨fs₂, _ | _ | _ | msg⟩
    · simp [hrem, hencoded]
    · rcases hplain : os.remove fs₂ (join [userDir u.uuid, finger]) with ⟨fs₃, _ | _ | _ | msg⟩ <;>
        simp [hrem, hplain]
    · simp [hrem]
    · simp [hrem]

/-- What renaming a finger touches. -/
theorem renameFinger_confined_iff (fs : σ) (u : UserInfo) (finger newName : List UInt8)
    (reload : Except String ℤ) :
    Confined (userDir u.uuid) (HuaweiDevice.renameFinger os fs u finger newName reload) ↔
      (RenamesPlain os fs u finger newName →
        IsChild (userDir u.uuid) (join [userDir u.uuid, finger])) := by
  have hencoded := isChild_encoded u finger
  have hnew := isChild_encoded u newName
  unfold HuaweiDevice.renameFinger RenamesPlain Confined
  rcases hens : ensureHuaweiFprintDir os fs u.uuid with ⟨fs₁, err | dir⟩
  · simp
  · obtain rfl := ensureHuaweiFprintDir_eq hens
    rcases hstat : os.stat fs₁ (join [userDir u.uuid, encodeFingerName newName]) with _ | err
    · simp [hstat]
    · rcases hren : os.rename fs₁ (join [userDir u.uuid, encodeFingerName finger])
          (join [userDir u.uuid, encodeFingerName newName]) with ⟨fs₂, _ | _ | _ | msg⟩
      · simp [hstat, hren, hencoded, hnew]
      · rcases hplain : os.rename fs₂ (join [userDir u.uuid, finger])
            (join [userDir u.uuid, encodeFingerName newName]) with ⟨fs₃, _ | _ | _ | msg⟩ <;>
          simp [hstat, hren, hplain, hnew]
      · simp [hstat, hren]
      · simp [hstat, hren]

/-- The plain name is that of a file that one of the calls finds and changes. -/
def TriesPlain (os : Os σ) (env : FingerEnv) (fs : σ) (u : UserInfo)
    (finger newName : List UInt8) : Prop :=
  env.hasDevice = true ∧
    (env.auth = none ∧ RemovesPlain os fs u finger ∨
      finger ≠ newName ∧ RenamesPlain os fs u finger newName)

/-- **Both calls touch files in the directory of the user only**, for every content of the file
system and all names, exactly if a plain name that is found is that of such a file. Of the names
without a slash those are all but the empty one, a dot and two dots. -/
theorem fingers_confined_iff (os : Os σ) (env : FingerEnv) (fs : σ)
    (finger newName : List UInt8) :
    ((∀ u, env.userInfo = .ok u →
      Confined (userDir u.uuid) (deleteFinger os env fs finger) ∧
        Confined (userDir u.uuid) (renameFinger os env fs finger newName)) ↔
    ∀ u, env.userInfo = .ok u → TriesPlain os env fs u finger newName →
      IsChild (userDir u.uuid) (join [userDir u.uuid, finger])) ∧
    ∀ u : UserInfo, slash ∉ finger →
      (IsChild (userDir u.uuid) (join [userDir u.uuid, finger]) ↔ IsName finger) := by
  refine ⟨forall_congr' fun u => forall_congr' fun hu => ?_, fun u => isChild_plain_iff u⟩
  have hdel : Confined (userDir u.uuid) (deleteFinger os env fs finger) ↔
      (env.hasDevice = true ∧ env.auth = none ∧ RemovesPlain os fs u finger →
        IsChild (userDir u.uuid) (join [userDir u.uuid, finger])) := by
    unfold deleteFinger
    rcases env.auth with _ | msg
    · rcases env.hasDevice with _ | _
      · simp [Confined]
      · simp [hu, deleteFinger_confined_iff]
    · simp [Confined]
  have hren : Confined (userDir u.uuid) (renameFinger os env fs finger newName) ↔
      (env.hasDevice = true ∧ finger ≠ newName ∧ RenamesPlain os fs u finger newName →
        IsChild (userDir u.uuid) (join [userDir u.uuid, finger])) := by
    unfold renameFinger
    by_cases hname : finger = newName
    · simp [Confined, hname]
    · rcases env.hasDevice with _ | _
      · simp [Confined, hname]
      · simp [hu, hname, renameFinger_confined_iff]
  rw [hdel, hren, TriesPlain, and_or_left, or_imp]

end confined

/-- A file system of plain files, by their paths; every directory is there. -/
def filesOnly : Os (List (List UInt8)) where
  mkdirAll fs _ := (fs, none)
  mkdir fs _ := (fs, some .exist)
  stat fs p := if p ∈ fs then none else some .notExist
  remove fs p := if p ∈ fs then (fs.erase p, none) else (fs, some .notExist)
  rename fs p q := if p ∈ fs then (q :: fs.erase p, none) else (fs, some .notExist)

/-- A client deletes the finger of another user, by a path that leads there. -/
theorem neighbours_finger_removed :
    ¬ ∀ (os : Os (List (List UInt8))) (env : FingerEnv) fs finger newName u,
      env.userInfo = .ok u →
        Confined (userDir u.uuid) (deleteFinger os env fs finger) ∧
          Confined (userDir u.uuid) (renameFinger os env fs finger newName) := by
  intro h
  have hconfined := (h filesOnly
    ⟨none, true, .ok ⟨"alice", bytes "1000", by decide⟩, .ok 0⟩
    [huaweiFprintDir ++ bytes "/1001/left-thumb"] (bytes "../1001/left-thumb") [] _ rfl).1
  obtain ⟨name, -, heq⟩ := hconfined (huaweiFprintDir ++ bytes "/1001/left-thumb") (by decide)
  have htake := congrArg (List.take (userDir (bytes "1000")).length) heq
  rw [List.take_left] at htake
  exact absurd htake (by decide)

end LingmoAuthenticate.Fingerprint
