import LingmoAuthenticate.Fingerprint.HuaweiDevice

/-!
# What the engine gets to see: `huawei_device.go`

The engine of a Huawei device has the files of the fingers loaded, and loads them anew when it is
told to. The calls of the device change files and tell it so; here they are with what they do in
order, the removal of all fingers and the enrolment besides.

* `refines_deleteFinger`, `refines_renameFinger`: without the order these are the calls that
  `HuaweiDevice.lean` has.
* `SeesChanges`: the engine is told after each change, and where no error is returned it has loaded
  the files since.
* `engine_sees_iff`: that is so exactly if no plain name is removed or renamed, and the removal of
  all fingers does not fail when some are gone.
-/

namespace LingmoAuthenticate.Fingerprint

open Lib Lib.Path

/-! ## What is done, in order -/

/-- What a call does, in the order in which it does it: a file of the user is removed or renamed,
the engine is told to reload, with what it answers, or an enrolment is begun. -/
inductive EngineEvent where
  | removed (path : List UInt8)
  | renamed (oldPath newPath : List UInt8)
  | reload (deleteType : ℤ) (ret : Except String ℤ)
  | enroll (filename uuid : List UInt8)

namespace EngineEvent

/-- A file is removed or renamed. -/
def IsChange : EngineEvent → Prop
  | .removed _ | .renamed _ _ => True
  | _ => False

/-- The engine is told. -/
def IsReload : EngineEvent → Prop
  | .reload _ _ => True
  | _ => False

/-- The engine is told, and has loaded its files. -/
def IsReloaded : EngineEvent → Prop
  | .reload _ ret => reloadError ret = none
  | _ => False

/-- The paths of the files. -/
def paths : EngineEvent → List (List UInt8)
  | .removed path => [path]
  | .renamed oldPath newPath => [oldPath, newPath]
  | _ => []

end EngineEvent

/-- How the calls of the device fail: as those of the manager do, because the engine has not loaded
the fingers, or with an error of the engine. -/
inductive HuaweiError where
  | finger (err : FingerError)
  | failedToLoad
  | core (msg : String)

/-- What a call has done: the content of the file system, what was done in order, and the error. -/
structure Traced (σ : Type*) where
  fs : σ
  log : List EngineEvent
  err : Option HuaweiError

/-- The calls on the file system, with the removal of a directory: which files are gone, and what it
answers. -/
structure OsAll (σ : Type*) extends Os σ where
  removeAll : σ → List UInt8 → σ × List (List UInt8) × Option OsError

/-- Source: `huawei_device.go`, `HuaweiDeleteTypeOne`. -/
def HuaweiDeleteTypeOne : ℤ := 0

/-- Source: `huawei_device.go`, `HuaweiDeleteTypeAll`. -/
def HuaweiDeleteTypeAll : ℤ := 1

namespace Traced

section device

variable {σ : Type*} (os : OsAll σ)

/-- The content `fs` after `log`, and the error of the file system. -/
def failed (fs : σ) (err : OsError) : Traced σ := ⟨fs, [], some (.finger (.os err))⟩

/-- What was done, and then the engine is told. -/
def reloaded (fs : σ) (log : List EngineEvent) (deleteType : ℤ) (reload : Except String ℤ) :
    Traced σ :=
  ⟨fs, log ++ [.reload deleteType reload], (reloadError reload).map .finger⟩

/-- Source: `huawei_device.go`, `huaweiDevice.enroll`. -/
def enroll (fs : σ) (user : UserInfo) (finger : List UInt8) (reload : Except String ℤ)
    (enrollErr : Option String) : Traced σ :=
  match ensureHuaweiFprintDir os.toOs fs user.uuid with
  | (fs, .error err) => failed fs err
  | (fs, .ok dir) =>
      let filename := join [dir, encodeFingerName finger]
      let started (fs : σ) (log : List EngineEvent) : Traced σ :=
        ⟨fs, log ++ [.enroll filename user.uuid], enrollErr.map .core⟩
      let told (fs : σ) (log : List EngineEvent) : Traced σ :=
        let log := log ++ [.reload HuaweiDeleteTypeOne reload]
        match reload with
        | .error msg => ⟨fs, log, some (.finger (.reload msg))⟩
        | .ok reloadRet =>
            if reloadRet = -1 then ⟨fs, log, some .failedToLoad⟩ else started fs log
      match os.stat fs filename with
      | some .notExist => started fs []
      | some err => failed fs err
      | none =>
          match os.remove fs filename with
          | (fs, none) => told fs [.removed filename]
          | (fs, some .notExist) => told fs []
          | (fs, some err) => failed fs err

/-- Source: `huawei_device.go`, `huaweiDevice.deleteFinger`. -/
def deleteFinger (fs : σ) (userInfo : UserInfo) (finger : List UInt8)
    (reload : Except String ℤ) : Traced σ :=
  match ensureHuaweiFprintDir os.toOs fs userInfo.uuid with
  | (fs, .error err) => failed fs err
  | (fs, .ok dir) =>
      let path := join [dir, encodeFingerName finger]
      match os.remove fs path with
      | (fs, none) => reloaded fs [.removed path] HuaweiDeleteTypeOne reload
      | (fs, some .notExist) =>
          let path := join [dir, finger]
          match os.remove fs path with
          | (fs, none) => ⟨fs, [.removed path], none⟩
          | (fs, some .notExist) => ⟨fs, [], some (.finger .notFoundFinger)⟩
          | (fs, some err) => failed fs err
      | (fs, some err) => failed fs err

/-- Source: `huawei_device.go`, `huaweiDevice.deleteAllFingers`. -/
def deleteAllFingers (fs : σ) (userInfo : UserInfo) (reload : Except String ℤ) : Traced σ :=
  match os.removeAll fs (userDir userInfo.uuid) with
  | (fs, removed, some err) =>
      ⟨fs, removed.map EngineEvent.removed, some (.finger (.os err))⟩
  | (fs, removed, none) => reloaded fs (removed.map EngineEvent.removed) HuaweiDeleteTypeAll reload

/-- Source: `huawei_device.go`, `huaweiDevice.renameFinger`. -/
def renameFinger (fs : σ) (userInfo : UserInfo) (finger newName : List UInt8)
    (reload : Except String ℤ) : Traced σ :=
  match ensureHuaweiFprintDir os.toOs fs userInfo.uuid with
  | (fs, .error err) => failed fs err
  | (fs, .ok dir) =>
      let oldPath := join [dir, encodeFingerName finger]
      let newPath := join [dir, encodeFingerName newName]
      match os.stat fs newPath with
      | none => ⟨fs, [], some (.finger (.exists newName))⟩
      | some _ =>
          match os.rename fs oldPath newPath with
          | (fs, none) => reloaded fs [.renamed oldPath newPath] HuaweiDeleteTypeOne reload
          | (fs, some .notExist) =>
              let oldPath := join [dir, finger]
              match os.rename fs oldPath newPath with
              | (fs, none) => ⟨fs, [.renamed oldPath newPath], none⟩
              | (fs, some .notExist) => ⟨fs, [], some (.finger .notFoundFinger)⟩
              | (fs, some err) => failed fs err
          | (fs, some err) => failed fs err

end device

end Traced

/-- A call of the device that changes the fingers of the user; an enrolment comes with the answer of
the engine. -/
inductive HuaweiCall where
  | enroll (finger : List UInt8) (enrollErr : Option String)
  | deleteFinger (finger : List UInt8)
  | deleteAllFingers
  | renameFinger (finger newName : List UInt8)

/-- What a call does. -/
def HuaweiCall.exec {σ : Type*} (os : OsAll σ) (fs : σ) (user : UserInfo)
    (reload : Except String ℤ) : HuaweiCall → Traced σ
  | .enroll finger enrollErr => Traced.enroll os fs user finger reload enrollErr
  | .deleteFinger finger => Traced.deleteFinger os fs user finger reload
  | .deleteAllFingers => Traced.deleteAllFingers os fs user reload
  | .renameFinger finger newName => Traced.renameFinger os fs user finger newName reload

/-! ## What is to hold -/

/-- Each change is followed by something of this kind. -/
def Followed (P : EngineEvent → Prop) : List EngineEvent → Prop
  | [] => True
  | e :: es => (e.IsChange → ∃ e' ∈ es, P e') ∧ Followed P es

/-- **The engine sees every change**: it is told after each of them, and where no error is returned
it has loaded its files since. -/
structure SeesChanges {σ : Type*} (t : Traced σ) : Prop where
  told : Followed EngineEvent.IsReload t.log
  loaded : t.err = none → Followed EngineEvent.IsReloaded t.log

/-- No file of a plain name is removed or renamed, and no file is gone where not all could be
removed. -/
def Reloads {σ : Type*} (os : OsAll σ) (fs : σ) (user : UserInfo) : HuaweiCall → Prop
  | .enroll _ _ => True
  | .deleteFinger finger => ¬ RemovesPlain os.toOs fs user finger
  | .deleteAllFingers => (os.removeAll fs (userDir user.uuid)).2.2 = none ∨
      (os.removeAll fs (userDir user.uuid)).2.1 = []
  | .renameFinger finger newName => ¬ RenamesPlain os.toOs fs user finger newName

/-! ## Without the order -/

variable {σ : Type*} {os : OsAll σ}

/-- The same is done, of which only the paths are kept. -/
structure Traced.Refines (t : Traced σ) (d : Done σ) : Prop where
  fs : t.fs = d.fs
  touched : t.log.flatMap EngineEvent.paths = d.touched
  err : t.err = d.err.map .finger

theorem refines_deleteFinger (fs : σ) (u : UserInfo) (finger : List UInt8)
    (reload : Except String ℤ) :
    (Traced.deleteFinger os fs u finger reload).Refines
      (HuaweiDevice.deleteFinger os.toOs fs u finger reload) := by
  unfold Traced.deleteFinger HuaweiDevice.deleteFinger
  rcases ensureHuaweiFprintDir os.toOs fs u.uuid with ⟨fs₁, err | dir⟩
  · exact ⟨rfl, rfl, rfl⟩
  · rcases hrem : os.remove fs₁ (join [dir, encodeFingerName finger])
      with ⟨fs₂, _ | _ | _ | msg⟩
    · simp only [hrem]
      exact ⟨rfl, rfl, rfl⟩
    · rcases hplain : os.remove fs₂ (join [dir, finger]) with ⟨fs₃, _ | _ | _ | msg⟩ <;>
        simp only [hrem, hplain] <;> exact ⟨rfl, rfl, rfl⟩
    · simp only [hrem]
      exact ⟨rfl, rfl, rfl⟩
    · simp only [hrem]
      exact ⟨rfl, rfl, rfl⟩

theorem refines_renameFinger (fs : σ) (u : UserInfo) (finger newName : List UInt8)
    (reload : Except String ℤ) :
    (Traced.renameFinger os fs u finger newName reload).Refines
      (HuaweiDevice.renameFinger os.toOs fs u finger newName reload) := by
  unfold Traced.renameFinger HuaweiDevice.renameFinger
  rcases ensureHuaweiFprintDir os.toOs fs u.uuid with ⟨fs₁, err | dir⟩
  · exact ⟨rfl, rfl, rfl⟩
  · rcases hstat : os.stat fs₁ (join [dir, encodeFingerName newName]) with _ | err
    · simp only [hstat]
      exact ⟨rfl, rfl, rfl⟩
    · rcases hren : os.rename fs₁ (join [dir, encodeFingerName finger])
          (join [dir, encodeFingerName newName]) with ⟨fs₂, _ | _ | _ | msg⟩
      · simp only [hstat, hren]
        exact ⟨rfl, rfl, rfl⟩
      · rcases hplain : os.rename fs₂ (join [dir, finger])
            (join [dir, encodeFingerName newName]) with ⟨fs₃, _ | _ | _ | msg⟩ <;>
          simp only [hstat, hren, hplain] <;> exact ⟨rfl, rfl, rfl⟩
      · simp only [hstat, hren]
        exact ⟨rfl, rfl, rfl⟩
      · simp only [hstat, hren]
        exact ⟨rfl, rfl, rfl⟩

/-! ## What follows a change -/

variable {P : EngineEvent → Prop} {es : List EngineEvent} {e : EngineEvent}

@[simp] theorem followed_nil : Followed P [] := trivial

@[simp] theorem followed_cons :
    Followed P (e :: es) ↔ (e.IsChange → ∃ e' ∈ es, P e') ∧ Followed P es := Iff.rfl

/-- What comes last follows everything before it. -/
theorem followed_concat (hP : P e) (he : ¬ e.IsChange) (es : List EngineEvent) :
    Followed P (es ++ [e]) := by
  induction es with
  | nil => exact ⟨fun hch => absurd hch he, trivial⟩
  | cons e' es ih => exact ⟨fun _ => ⟨e, by simp, hP⟩, ih⟩

/-- Where nothing has changed, nothing need follow. -/
theorem followed_of_no_change (h : ∀ e ∈ es, ¬ e.IsChange) : Followed P es := by
  induction es with
  | nil => trivial
  | cons e es ih =>
      obtain ⟨he, hes⟩ := List.forall_mem_cons.mp h
      exact ⟨fun hch => absurd hch he, ih hes⟩

theorem SeesChanges.of_no_change {t : Traced σ} (h : ∀ e ∈ t.log, ¬ e.IsChange) :
    SeesChanges t where
  told := followed_of_no_change h
  loaded _ := followed_of_no_change h

theorem seesChanges_failed (fs : σ) (err : OsError) : SeesChanges (Traced.failed fs err) :=
  .of_no_change (by simp [Traced.failed])

/-- **Told in the end**, the engine has seen all changes. -/
theorem seesChanges_reloaded (fs : σ) (log : List EngineEvent) (deleteType : ℤ)
    (reload : Except String ℤ) : SeesChanges (Traced.reloaded fs log deleteType reload) where
  told := followed_concat trivial id log
  loaded herr := followed_concat (Option.map_eq_none_iff.mp herr) id log

/-- A file that is removed or renamed last is not seen. -/
theorem not_seesChanges_of_singleton {fs : σ} {err : Option HuaweiError} (he : e.IsChange) :
    ¬ SeesChanges (⟨fs, [e], err⟩ : Traced σ) := by
  intro h
  obtain ⟨e', he', -⟩ := h.told.1 he
  cases he'

/-! ## The four calls -/

/-- What the enrolment changes is seen, and the engine is told before it enrols. -/
theorem seesChanges_enroll (fs : σ) (u : UserInfo) (finger : List UInt8)
    (reload : Except String ℤ) (enrollErr : Option String) :
    SeesChanges (Traced.enroll os fs u finger reload enrollErr) := by
  unfold Traced.enroll
  rcases ensureHuaweiFprintDir os.toOs fs u.uuid with ⟨fs₁, err | dir⟩
  · exact seesChanges_failed ..
  · rcases hstat : os.stat fs₁ (join [dir, encodeFingerName finger]) with _ | _ | _ | msg
    · -- The file is there, and is removed, unless somebody else has done so.
      rcases hrem : os.remove fs₁ (join [dir, encodeFingerName finger])
        with ⟨fs₂, _ | _ | _ | msg⟩
      · simp only [hstat, hrem]
        rcases reload with msg | ret
        · exact ⟨followed_concat trivial id [_], by simp⟩
        · dsimp only
          split_ifs with hret
          · exact ⟨followed_concat trivial id [_], by simp⟩
          · constructor
            · simp [EngineEvent.IsChange, EngineEvent.IsReload]
            · simp [EngineEvent.IsChange, EngineEvent.IsReloaded, reloadError, hret]
      · simp only [hstat, hrem]
        rcases reload with msg | ret
        · exact .of_no_change (by simp [EngineEvent.IsChange])
        · dsimp only
          split_ifs
          · exact .of_no_change (by simp [EngineEvent.IsChange])
          · exact .of_no_change (by simp [EngineEvent.IsChange])
      · simp only [hstat, hrem]
        exact seesChanges_failed ..
      · simp only [hstat, hrem]
        exact seesChanges_failed ..
    · simp only [hstat]
      exact .of_no_change (by simp [EngineEvent.IsChange])
    · simp only [hstat]
      exact seesChanges_failed ..
    · simp only [hstat]
      exact seesChanges_failed ..

/-- **A deletion is seen** unless it is that of a plain name. -/
theorem seesChanges_deleteFinger_iff (fs : σ) (u : UserInfo) (finger : List UInt8)
    (reload : Except String ℤ) :
    SeesChanges (Traced.deleteFinger os fs u finger reload) ↔
      ¬ RemovesPlain os.toOs fs u finger := by
  unfold Traced.deleteFinger RemovesPlain
  rcases hens : ensureHuaweiFprintDir os.toOs fs u.uuid with ⟨fs₁, err | dir⟩
  · exact iff_of_true (seesChanges_failed ..) (by simp)
  · rcases hrem : os.remove fs₁ (join [dir, encodeFingerName finger])
      with ⟨fs₂, _ | _ | _ | msg⟩
    · simp only [hrem]
      exact iff_of_true (seesChanges_reloaded ..) (by simp [hrem])
    · rcases hplain : os.remove fs₂ (join [dir, finger]) with ⟨fs₃, _ | _ | _ | msg⟩
      · simp only [hrem, hplain]
        exact iff_of_false (not_seesChanges_of_singleton trivial) (by simp [hrem, hplain])
      · simp only [hrem, hplain]
        exact iff_of_true (.of_no_change (by simp)) (by simp [hrem, hplain])
      · simp only [hrem, hplain]
        exact iff_of_true (seesChanges_failed ..) (by simp [hrem, hplain])
      · simp only [hrem, hplain]
        exact iff_of_true (seesChanges_failed ..) (by simp [hrem, hplain])
    · simp only [hrem]
      exact iff_of_true (seesChanges_failed ..) (by simp [hrem])
    · simp only [hrem]
      exact iff_of_true (seesChanges_failed ..) (by simp [hrem])

/-- **A renaming is seen** unless it is that of a plain name. -/
theorem seesChanges_renameFinger_iff (fs : σ) (u : UserInfo) (finger newName : List UInt8)
    (reload : Except String ℤ) :
    SeesChanges (Traced.renameFinger os fs u finger newName reload) ↔
      ¬ RenamesPlain os.toOs fs u finger newName := by
  unfold Traced.renameFinger RenamesPlain
  rcases hens : ensureHuaweiFprintDir os.toOs fs u.uuid with ⟨fs₁, err | dir⟩
  · exact iff_of_true (seesChanges_failed ..) (by simp)
  · rcases hstat : os.stat fs₁ (join [dir, encodeFingerName newName]) with _ | err
    · simp only [hstat]
      exact iff_of_true (.of_no_change (by simp)) (by simp [hstat])
    · rcases hren : os.rename fs₁ (join [dir, encodeFingerName finger])
          (join [dir, encodeFingerName newName]) with ⟨fs₂, _ | _ | _ | msg⟩
      · simp only [hstat, hren]
        exact iff_of_true (seesChanges_reloaded ..) (by simp [hstat, hren])
      · rcases hplain : os.rename fs₂ (join [dir, finger])
            (join [dir, encodeFingerName newName]) with ⟨fs₃, _ | _ | _ | msg⟩
        · simp only [hstat, hren, hplain]
          exact iff_of_false (not_seesChanges_of_singleton trivial) (by simp [hstat, hren, hplain])
        · simp only [hstat, hren, hplain]
          exact iff_of_true (.of_no_change (by simp)) (by simp [hstat, hren, hplain])
        · simp only [hstat, hren, hplain]
          exact iff_of_true (seesChanges_failed ..)
            (by simp [hstat, hren, hplain])
        · simp only [hstat, hren, hplain]
          exact iff_of_true (seesChanges_failed ..)
            (by simp [hstat, hren, hplain])
      · simp only [hstat, hren]
        exact iff_of_true (seesChanges_failed ..) (by simp [hstat, hren])
      · simp only [hstat, hren]
        exact iff_of_true (seesChanges_failed ..) (by simp [hstat, hren])

/-- **The removal of all fingers is seen** unless it fails when some are gone. -/
theorem seesChanges_deleteAllFingers_iff (fs : σ) (u : UserInfo) (reload : Except String ℤ) :
    SeesChanges (Traced.deleteAllFingers os fs u reload) ↔
      (os.removeAll fs (userDir u.uuid)).2.2 = none ∨
        (os.removeAll fs (userDir u.uuid)).2.1 = [] := by
  unfold Traced.deleteAllFingers
  rcases os.removeAll fs (userDir u.uuid) with ⟨fs₁, removed, _ | err⟩
  · exact iff_of_true (seesChanges_reloaded ..) (Or.inl rfl)
  · rcases removed with _ | ⟨path, removed⟩
    · exact iff_of_true (.of_no_change (by simp)) (Or.inr rfl)
    · refine iff_of_false ?_ (by simp)
      intro h
      obtain ⟨e', he', hreload⟩ := h.told.1 trivial
      obtain ⟨path', -, rfl⟩ := List.mem_map.mp he'
      exact hreload

/-- **The engine sees every change**, for every content of the file system, every name and every
outcome, exactly if no plain name is removed or renamed, and the removal of all fingers does not
fail when some are gone. Without the order of its events, a deletion or a renaming is that of the
device. -/
theorem engine_sees_iff (os : OsAll σ) (fs : σ) (user : UserInfo) (reload : Except String ℤ)
    (call : HuaweiCall) :
    (SeesChanges (call.exec os fs user reload) ↔ Reloads os fs user call) ∧
    ∀ finger newName,
      (Traced.deleteFinger os fs user finger reload).Refines
        (HuaweiDevice.deleteFinger os.toOs fs user finger reload) ∧
      (Traced.renameFinger os fs user finger newName reload).Refines
        (HuaweiDevice.renameFinger os.toOs fs user finger newName reload) := by
  refine ⟨?_, fun finger newName => ⟨refines_deleteFinger fs user finger reload,
    refines_renameFinger fs user finger newName reload⟩⟩
  cases call with
  | enroll finger enrollErr =>
      exact iff_of_true (seesChanges_enroll fs user finger reload enrollErr) trivial
  | deleteFinger finger => exact seesChanges_deleteFinger_iff fs user finger reload
  | deleteAllFingers => exact seesChanges_deleteAllFingers_iff fs user reload
  | renameFinger finger newName =>
      exact seesChanges_renameFinger_iff fs user finger newName reload

/-- Plain files, of which those below a directory are removed with it. -/
def filesAll : OsAll (List (List UInt8)) where
  toOs := filesOnly
  removeAll fs dir := (fs.filter fun p => ¬ dir <+: p, fs.filter fun p => dir <+: p, none)

/-- A user with a finger of an earlier version. -/
def alice : UserInfo := ⟨"alice", bytes "1000", by decide⟩

def alicesFiles : List (List UInt8) := [huaweiFprintDir ++ bytes "/1000/left-thumb"]

theorem removesPlain_alice :
    RemovesPlain filesAll.toOs alicesFiles alice (bytes "left-thumb") :=
  ⟨alicesFiles, alicesFiles, [], userDir alice.uuid, rfl, by decide, by decide⟩

/-- **A finger of an earlier version** is deleted, and the engine still has it. -/
theorem plain_finger_kept : ¬ ∀ (os : OsAll (List (List UInt8))) fs user reload
    (call : HuaweiCall), SeesChanges (call.exec os fs user reload) := by
  intro h
  have hsees : SeesChanges
      (Traced.deleteFinger filesAll alicesFiles alice (bytes "left-thumb") (.ok 0)) :=
    h filesAll alicesFiles alice (.ok 0) (.deleteFinger (bytes "left-thumb"))
  rw [seesChanges_deleteFinger_iff] at hsees
  exact hsees removesPlain_alice

end LingmoAuthenticate.Fingerprint
