import LingmoAuthenticate.Lib.Machine
import LingmoAuthenticate.Fingerprint.FingerNames

/-!
# The device of `fprintd`: `fprintd_device.go`

The device enrols a finger that `fprintd` has no print of, under a name that the user gives. The
name is kept when `fprintd` says that the finger is enrolled, and with the finger it is changed and
deleted. A listing compares what is kept with what `fprintd` reports. For one user the kept names
are a file, read and written by each call.

* `Distinct`: no two fingers have one name; `distinct_insert_iff`, `distinct_getFingerNames_iff`:
  what a name that enters must not be.
* `Identifies`: with that, a deletion or a renaming of a listed name acts on the finger that is
  listed under it, and no print is lost for another.
* `names_identify_iff`: the names identify the fingers over a whole run exactly if each name that
  enters is free: given by a renaming, kept when an enrolment ends, or taken from a report.
-/

namespace LingmoAuthenticate.Fingerprint

open Lib Lib.GoMap

/-! ## What `fprintd` and the file answer -/

/-- Source: `fprintd_device.go`, `standardFinger`. -/
def standardFinger : List String :=
  ["left-thumb", "left-index-finger", "left-middle-finger", "left-ring-finger",
    "left-little-finger", "right-thumb", "right-index-finger", "right-middle-finger",
    "right-ring-finger", "right-little-finger"]

/-- The fingers that `fprintd` reports for the user: each once, and by the standard names that it
has for them. -/
structure Report where
  names : List String
  nodup : names.Nodup
  standard : ∀ v ∈ names, v ∈ standardFinger

/-- What goes wrong with the file of the names when it is read (`loadErr`) and when it is written
(`saveErr`), if anything does. -/
structure FileEnv where
  loadErr : Option String
  saveErr : Option String
  deriving DecidableEq

/-- Nothing does. -/
def FileEnv.works : FileEnv := ⟨none, none⟩

/-! ## The device -/

/-- Source: `fprintd_device.go`, `FprintdDevice.curEnrollFinger`. -/
structure CurEnrollFinger where
  stdName : String
  fingerName : String

/-- The device, of which the finger that is being enrolled is kept in memory, and the names of the
fingers in the file of the user. Source: `fprintd_device.go`, `FprintdDevice`. -/
structure FprintdDevice where
  curEnrollFinger : CurEnrollFinger
  stored : FingerNameConfig

/-- Why an enrolment is refused: a call of it fails, no finger is free any more, or one of that name
is enrolled. -/
inductive EnrollErr where
  | core (msg : String)
  | tooMany
  | fingerExists

/-- The text of the error. -/
def EnrollErr.msg : EnrollErr → String
  | .core msg => msg
  | .tooMany => "fingerprint name too many"
  | .fingerExists => "fingerprint exists"

/-- What an enrolment returns, and for which finger it calls `EnrollStart`. -/
structure EnrollResult where
  err : Option EnrollErr
  enrollStart : Option String
  dev : FprintdDevice

/-- What a deletion returns, and for which finger it calls `DeleteEnrolledFinger`. -/
structure DeleteResult where
  err : Option String
  deleteEnrolledFinger : Option String
  dev : FprintdDevice

namespace FprintdDevice

/-- Source: `fprintd_device.go`, `newFingerNameConfig`. -/
def newFingerNameConfig (d : FprintdDevice) (file : FileEnv) : Except String FingerNameConfig :=
  match file.loadErr with
  | some msg => .error msg
  | none => .ok d.stored

/-- A file that cannot be written stays as it is. Source: `FingerNameConfig.save`. -/
def save (d : FprintdDevice) (f : FingerNameConfig) (file : FileEnv) :
    Option String × FprintdDevice :=
  match file.saveErr with
  | some msg => (some msg, d)
  | none => (none, { d with stored := f })

/-- The fingers that are taken to be enrolled, where the error is not another.
Source: `FprintdDevice.enroll`, its call of `ListEnrolledFingers`. -/
def enrolled (listed : Except String Report) : Except String (List String) :=
  match listed with
  | .ok r => .ok r.names
  | .error msg => if msg = "Failed to discover prints" then .ok [] else .error msg

/-- The first finger that is not enrolled. Source: `FprintdDevice.enroll`, its loop. -/
def freeFinger (fin : List String) : Option String := standardFinger.find? fun v => v ∉ fin

/-- Source: `FprintdDevice.enroll`. -/
def enroll (d : FprintdDevice) (finger : String) (listed : Except String Report) (file : FileEnv)
    (startErr : Option String) : EnrollResult :=
  match enrolled listed with
  | .error msg => ⟨some (.core msg), none, d⟩
  | .ok fin =>
      match freeFinger fin with
      | none => ⟨some .tooMany, none, d⟩
      | some stdName =>
          match d.newFingerNameConfig file with
          | .error _ => ⟨none, none, d⟩
          | .ok f =>
              if f.isFingerExists finger then ⟨some .fingerExists, none, d⟩
              else
                match startErr with
                | some msg => ⟨some (.core msg), some stdName, d⟩
                | none => ⟨none, some stdName, { d with curEnrollFinger := ⟨stdName, finger⟩ }⟩

/-- Source: `FprintdDevice.listenSignals`, its handler of `EnrollStatus`, of a completed
enrolment. -/
def enrollCompleted (d : FprintdDevice) (file : FileEnv) : FprintdDevice :=
  match d.newFingerNameConfig file with
  | .error _ => d
  | .ok f =>
      (d.save (f.setWithoutSave d.curEnrollFinger.stdName d.curEnrollFinger.fingerName) file).2

/-- Source: `FprintdDevice.deleteFinger`. -/
def deleteFinger (d : FprintdDevice) (order : RangeOrder String String) (finger : String)
    (deleteErr : Option String) (file : FileEnv) : DeleteResult :=
  match d.newFingerNameConfig file with
  | .error msg => ⟨some msg, none, d⟩
  | .ok f =>
      let stdName := f.getStdName order finger
      match deleteErr with
      | some msg => ⟨some msg, some stdName, d⟩
      | none => ⟨none, some stdName, (d.save (f.delete stdName) file).2⟩

/-- Source: `FprintdDevice.deleteAllFingers`. -/
def deleteAllFingers (d : FprintdDevice) (deleteErr : Option String) (file : FileEnv) :
    Option String × FprintdDevice :=
  match deleteErr with
  | some msg => (some msg, d)
  | none =>
      match d.newFingerNameConfig file with
      | .error _ => (none, d)
      | .ok f => (none, (d.save f.clear file).2)

/-- Source: `FprintdDevice.listFingers`. -/
def listFingers (d : FprintdDevice) (listed : Except String Report) (file : FileEnv) :
    Except String (List String) × FprintdDevice :=
  match listed with
  | .error msg => (.error msg, d)
  | .ok r =>
      match d.newFingerNameConfig file with
      | .error msg => (.error msg, d)
      | .ok f =>
          let (res, f') := f.getFingerNames r.names
          (.ok res, (d.save f' file).2)

/-- Source: `FprintdDevice.renameFinger`. -/
def renameFinger (d : FprintdDevice) (order : RangeOrder String String) (finger newName : String)
    (file : FileEnv) : Option String × FprintdDevice :=
  match d.newFingerNameConfig file with
  | .error _ => (none, d)
  | .ok f =>
      match f.rename order finger newName with
      | .error msg => (some msg, d)
      | .ok f' => d.save f' file

end FprintdDevice

/-! ## Runs -/

/-- What happens: the calls on the device and the signal that an enrolment is complete, each with
what `fprintd` answers, what goes wrong with the file, and the order of a loop over the names. -/
inductive FingerAct where
  | enroll (finger : String) (listed : Except String Report) (file : FileEnv)
      (startErr : Option String)
  | enrollCompleted (file : FileEnv)
  | deleteFinger (order : RangeOrder String String) (finger : String) (deleteErr : Option String)
      (file : FileEnv)
  | deleteAllFingers (deleteErr : Option String) (file : FileEnv)
  | listFingers (listed : Except String Report) (file : FileEnv)
  | renameFinger (order : RangeOrder String String) (finger newName : String) (file : FileEnv)

/-- The device, and whether an enrolment is under way, so that its signal can still come. -/
structure FingerState where
  dev : FprintdDevice
  enrolling : Bool

namespace FingerState

/-- Nothing is kept. -/
def init : FingerState := ⟨⟨⟨"", ""⟩, FingerNameConfig.empty⟩, false⟩

/-- One step; what is completed is an enrolment that has been started. -/
def move (s : FingerState) : FingerAct → Option FingerState
  | .enroll finger listed file startErr =>
      let r := s.dev.enroll finger listed file startErr
      some ⟨r.dev, s.enrolling || (r.err.isNone && r.enrollStart.isSome)⟩
  | .enrollCompleted file =>
      if s.enrolling then some ⟨s.dev.enrollCompleted file, false⟩ else none
  | .deleteFinger order finger deleteErr file =>
      some { s with dev := (s.dev.deleteFinger order finger deleteErr file).dev }
  | .deleteAllFingers deleteErr file =>
      some { s with dev := (s.dev.deleteAllFingers deleteErr file).2 }
  | .listFingers listed file => some { s with dev := (s.dev.listFingers listed file).2 }
  | .renameFinger order finger newName file =>
      some { s with dev := (s.dev.renameFinger order finger newName file).2 }

/-- One step, with nothing observed: the names are read from the state. -/
def step (s : FingerState) (a : FingerAct) : Option (FingerState × Unit) :=
  (s.move a).map fun t => (t, ())

end FingerState

/-! ## What is to hold -/

/-- **No two fingers have one name.** -/
def FingerNameConfig.Distinct (f : FingerNameConfig) : Prop :=
  ∀ v w name, f.FingerMap.lookup v = some name → f.FingerMap.lookup w = some name → v = w

/-- **A deletion and a renaming of a name act on one finger**: its print is deleted, and its name is
deleted or another, while no other finger is touched, whatever fails. -/
structure FprintdDevice.ActsOn (d : FprintdDevice) (name v : String) : Prop where
  deletes : ∀ order deleteErr file, file.loadErr = none →
    (d.deleteFinger order name deleteErr file).deleteEnrolledFinger = some v
  deleted : ∀ order,
    (d.deleteFinger order name none .works).dev.stored.FingerMap.lookup v = none
  renamed : ∀ order newName,
    (d.renameFinger order name newName .works).2.stored.FingerMap.lookup v = some newName
  others : ∀ order deleteErr newName file w, w ≠ v →
    (d.deleteFinger order name deleteErr file).dev.stored.FingerMap.lookup w =
        d.stored.FingerMap.lookup w ∧
      (d.renameFinger order name newName file).2.stored.FingerMap.lookup w =
        d.stored.FingerMap.lookup w

/-- **The names identify the fingers.** Where the fingers that are reported are kept, as after a
listing that was written, a listed name acts on a finger that is listed under it. No print that is
reported is deleted for a name that is not listed. -/
structure FprintdDevice.Identifies (d : FprintdDevice) : Prop where
  distinct : d.stored.Distinct
  acts_on : ∀ r : Report, (∀ v ∈ r.names, v ∈ d.stored.StdNames) →
    ∀ name ∈ (d.stored.getFingerNames r.names).1,
      ∃ v ∈ r.names, d.stored.nameOf v = name ∧ d.ActsOn name v
  spares : ∀ r : Report, ∀ name ∉ (d.stored.getFingerNames r.names).1,
    ∀ order deleteErr file v,
      (d.deleteFinger order name deleteErr file).deleteEnrolledFinger = some v → v ∉ r.names

/-- A name that enters is free: no other finger has the name of the finger whose enrolment is
completed, or the new name of a finger, and no finger has a name that is the standard name of one
that is reported and not kept. -/
def FingerState.Free (s : FingerState) : FingerAct → Prop
  | .enrollCompleted file => s.enrolling = true → file = .works →
      ∀ w, s.dev.stored.FingerMap.lookup w = some s.dev.curEnrollFinger.fingerName →
        w = s.dev.curEnrollFinger.stdName
  | .listFingers (.ok r) file => file = .works →
      ∀ v ∈ s.dev.stored.missing r.names, ∀ w, s.dev.stored.FingerMap.lookup w ≠ some v
  | .renameFinger order finger newName file => file = .works →
      s.dev.stored.getStdName order finger ≠ "" →
        ∀ w, s.dev.stored.FingerMap.lookup w = some newName →
          w = s.dev.stored.getStdName order finger
  | _ => True

/-! ## What keeps the names distinct -/

namespace FingerNameConfig

variable {f : FingerNameConfig} {stdNames : List String}

theorem distinct_empty : empty.Distinct := by
  intro v w name hv
  simp [empty] at hv

/-- **A name that enters** is that of no other finger. -/
theorem distinct_insert_iff (h : f.Distinct) {names : List String} {v name : String} :
    (⟨names, f.FingerMap.insert v name⟩ : FingerNameConfig).Distinct ↔
      ∀ w, f.FingerMap.lookup w = some name → w = v := by
  constructor
  · intro hins w hw
    by_contra hne
    refine hne (hins w v name ?_ (AList.lookup_insert _))
    rw [← hw]
    exact AList.lookup_insert_ne hne
  · intro hfree v₁ v₂ x h₁ h₂
    dsimp only at h₁ h₂
    by_cases hv₁ : v₁ = v
    · by_cases hv₂ : v₂ = v
      · rw [hv₁, hv₂]
      · rw [hv₁, AList.lookup_insert] at h₁
        rw [AList.lookup_insert_ne hv₂, ← h₁] at h₂
        exact absurd (hfree v₂ h₂) hv₂
    · rw [AList.lookup_insert_ne hv₁] at h₁
      by_cases hv₂ : v₂ = v
      · rw [hv₂, AList.lookup_insert] at h₂
        rw [← h₂] at h₁
        exact absurd (hfree v₁ h₁) hv₁
      · rw [AList.lookup_insert_ne hv₂] at h₂
        exact h v₁ v₂ x h₁ h₂

/-- What a deletion leaves at each finger. -/
theorem lookup_delete (hf : f.WellFormed) (v w : String) :
    (f.delete v).FingerMap.lookup w = if w = v then none else f.FingerMap.lookup w := by
  obtain heq | ⟨hv, heq⟩ := delete_eq hf v
  · rw [heq]
    split_ifs with hw
    · rw [hw]
      exact AList.lookup_erase _ _
    · exact AList.lookup_erase_ne hw
  · rw [heq]
    split_ifs with hw
    · rw [hw]
      exact hf.lookup_of_notMem hv
    · rfl

theorem Distinct.delete (h : f.Distinct) (hf : f.WellFormed) (v : String) :
    (f.delete v).Distinct := by
  intro v₁ v₂ name h₁ h₂
  rw [lookup_delete hf] at h₁ h₂
  split_ifs at h₁ h₂
  exact h v₁ v₂ name h₁ h₂

/-- **The names that a listing adds** are those of no finger. -/
theorem distinct_getFingerNames_iff (h : f.Distinct) (hf : f.WellFormed) (hnd : stdNames.Nodup) :
    (f.getFingerNames stdNames).2.Distinct ↔
      ∀ v ∈ f.missing stdNames, ∀ w, f.FingerMap.lookup w ≠ some v := by
  obtain ⟨-, -, hmap⟩ := getFingerNames_eq hf hnd
  have hmapped : ∀ {w name}, f.FingerMap.lookup w = some name → w ∉ f.missing stdNames := by
    intro w name hw hmiss
    rw [hf.lookup_of_notMem (mem_missing.mp hmiss).2] at hw
    cases hw
  constructor
  · intro hnew v hv w hw
    have hlook : (f.getFingerNames stdNames).2.FingerMap.lookup w = some v := by
      rw [hmap, if_neg (hmapped hw), hw]
    have heq : w = v := hnew w v v hlook (by rw [hmap, if_pos hv])
    exact hmapped hw (heq ▸ hv)
  · intro hfree v₁ v₂ name h₁ h₂
    rw [hmap] at h₁ h₂
    split_ifs at h₁ h₂ with hv₁ hv₂ hv₂
    · rw [Option.some.inj h₁, Option.some.inj h₂]
    · rw [← Option.some.inj h₁] at h₂
      exact absurd h₂ (hfree v₁ hv₁ v₂)
    · rw [← Option.some.inj h₂] at h₁
      exact absurd h₁ (hfree v₂ hv₂ v₁)
    · exact h v₁ v₂ name h₁ h₂

/-- A renaming that finds no finger leaves the names, and one that does gives a name. -/
theorem distinct_rename_iff (h : f.Distinct) {order : RangeOrder String String}
    {origName newName : String} :
    ((f.rename order origName newName).toOption.getD f).Distinct ↔
      (f.getStdName order origName ≠ "" →
        ∀ w, f.FingerMap.lookup w = some newName → w = f.getStdName order origName) := by
  unfold rename
  dsimp only
  split_ifs with hv
  · exact iff_of_true h (fun hne => absurd hv hne)
  · simp only [ne_eq, hv, not_false_eq_true, true_imp_iff]
    exact distinct_insert_iff h

/-- **A name that one finger has** is found at that finger, in whatever order. -/
theorem Distinct.getStdName_eq (h : f.Distinct) {order : RangeOrder String String}
    {name v : String} (hv : f.FingerMap.lookup v = some name) : f.getStdName order name = v := by
  unfold getStdName
  rcases hfound : (order.visit f.FingerMap).find? (fun e => e.2 = name) with _ | ⟨k, x⟩
  · have hnot := List.find?_eq_none.mp hfound ⟨v, name⟩
      ((order.ranges f.FingerMap).mem_iff.mpr hv)
    simp at hnot
  · have hx : x = name := by simpa using List.find?_some hfound
    have hk : f.FingerMap.lookup k = some x :=
      (order.ranges f.FingerMap).mem_iff.mp (List.mem_of_find?_eq_some hfound)
    rw [hfound]
    exact h k v name (hx ▸ hk) hv

end FingerNameConfig

/-! ## What is kept after each call -/

namespace FprintdDevice

variable {d : FprintdDevice} {order : RangeOrder String String} {file : FileEnv}

theorem stored_enroll (d : FprintdDevice) (finger : String) (listed : Except String Report)
    (file : FileEnv) (startErr : Option String) :
    (d.enroll finger listed file startErr).dev.stored = d.stored := by
  unfold enroll
  split
  · rfl
  · split
    · rfl
    · split
      · rfl
      · split_ifs
        · rfl
        · split
          · rfl
          · rfl

theorem stored_enrollCompleted (d : FprintdDevice) (file : FileEnv) :
    (d.enrollCompleted file).stored =
      if file = .works then
        d.stored.setWithoutSave d.curEnrollFinger.stdName d.curEnrollFinger.fingerName
      else d.stored := by
  obtain ⟨_ | _, _ | _⟩ := file <;> rfl

theorem stored_deleteFinger (d : FprintdDevice) (order : RangeOrder String String)
    (finger : String) (deleteErr : Option String) (file : FileEnv) :
    (d.deleteFinger order finger deleteErr file).dev.stored =
      if deleteErr = none ∧ file = .works then d.stored.delete (d.stored.getStdName order finger)
      else d.stored := by
  obtain ⟨_ | _, _ | _⟩ := file <;> cases deleteErr <;> rfl

theorem stored_deleteAllFingers (d : FprintdDevice) (deleteErr : Option String)
    (file : FileEnv) : (d.deleteAllFingers deleteErr file).2.stored =
      if deleteErr = none ∧ file = .works then FingerNameConfig.empty else d.stored := by
  obtain ⟨_ | _, _ | _⟩ := file <;> cases deleteErr <;> rfl

theorem stored_listFingers (d : FprintdDevice) (r : Report) (file : FileEnv) :
    (d.listFingers (.ok r) file).2.stored =
      if file = .works then (d.stored.getFingerNames r.names).2 else d.stored := by
  obtain ⟨_ | _, _ | _⟩ := file <;> rfl

theorem stored_renameFinger (d : FprintdDevice) (order : RangeOrder String String)
    (finger newName : String) (file : FileEnv) :
    (d.renameFinger order finger newName file).2.stored =
      if file = .works then (d.stored.rename order finger newName).toOption.getD d.stored
      else d.stored := by
  unfold renameFinger
  obtain ⟨_ | _, _ | _⟩ := file
  · show FprintdDevice.stored (match d.stored.rename order finger newName with
      | .error msg => (some msg, d)
      | .ok f' => d.save f' .works).2 =
        (d.stored.rename order finger newName).toOption.getD d.stored
    rcases d.stored.rename order finger newName with msg | f'
    · rfl
    · rfl
  · show FprintdDevice.stored (match d.stored.rename order finger newName with
      | .error msg => (some msg, d)
      | .ok f' => d.save f' _).2 = d.stored
    rcases d.stored.rename order finger newName with msg | f'
    · rfl
    · rfl
  · rfl
  · rfl

/-! ## Distinct names identify the fingers -/

/-- What a deletion asks `fprintd` to delete. -/
theorem deleteEnrolledFinger_eq (d : FprintdDevice) (order : RangeOrder String String)
    (finger : String) (deleteErr : Option String) (file : FileEnv) :
    (d.deleteFinger order finger deleteErr file).deleteEnrolledFinger =
      if file.loadErr = none then some (d.stored.getStdName order finger) else none := by
  obtain ⟨_ | _, _⟩ := file <;> cases deleteErr <;> rfl

/-- **A name of one finger** acts on that finger. -/
theorem actsOn (hf : d.stored.WellFormed) (h : d.stored.Distinct) {name v : String}
    (hv : d.stored.FingerMap.lookup v = some name) (hne : v ≠ "") : d.ActsOn name v := by
  have hstd : ∀ order, d.stored.getStdName order name = v := fun order => h.getStdName_eq hv
  have hrename : ∀ order newName, (d.stored.rename order name newName).toOption.getD d.stored =
      { d.stored with FingerMap := d.stored.FingerMap.insert v newName } := by
    intro order newName
    unfold FingerNameConfig.rename
    dsimp only
    rw [hstd, if_neg hne]
    rfl
  constructor
  · intro order deleteErr file hload
    rw [deleteEnrolledFinger_eq, if_pos hload, hstd]
  · intro order
    rw [stored_deleteFinger, if_pos ⟨rfl, rfl⟩, FingerNameConfig.lookup_delete hf, hstd,
      if_pos rfl]
  · intro order newName
    rw [stored_renameFinger, if_pos rfl, hrename]
    exact AList.lookup_insert _
  · intro order deleteErr newName file w hw
    rw [stored_deleteFinger, stored_renameFinger]
    constructor
    · split_ifs
      · rw [FingerNameConfig.lookup_delete hf, hstd, if_neg hw]
      · rfl
    · split_ifs
      · rw [hrename]
        exact AList.lookup_insert_ne hw
      · rfl

/-- No finger has the empty name. -/
theorem ne_of_mem_standardFinger {v : String} (hv : v ∈ standardFinger) : v ≠ "" := by
  rintro rfl
  revert hv
  decide

/-- **Distinct names identify the fingers.** -/
theorem identifies_iff (hf : d.stored.WellFormed) : d.Identifies ↔ d.stored.Distinct := by
  constructor
  · exact Identifies.distinct
  · intro h
    refine ⟨h, ?_, ?_⟩
    · intro r hkept name hname
      rw [(FingerNameConfig.perm_getFingerNames hf r.nodup).mem_iff] at hname
      obtain ⟨v, hv, rfl⟩ := List.mem_map.mp hname
      obtain ⟨name, hlook⟩ := hf.lookup_of_mem (hkept v hv)
      have hnameOf : d.stored.nameOf v = name := by
        rw [FingerNameConfig.nameOf, hlook]
        rfl
      rw [hnameOf]
      exact ⟨v, hv, hnameOf, actsOn hf h hlook (ne_of_mem_standardFinger (r.standard v hv))⟩
    · intro r name hname order deleteErr file v hcall hv
      rw [deleteEnrolledFinger_eq] at hcall
      split_ifs at hcall
      have hlook : d.stored.FingerMap.lookup v = some name :=
        FingerNameConfig.getStdName_eq (Option.some.inj hcall)
          (ne_of_mem_standardFinger (r.standard v hv))
      apply hname
      rw [(FingerNameConfig.perm_getFingerNames hf r.nodup).mem_iff]
      exact List.mem_map.mpr ⟨v, hv, by rw [FingerNameConfig.nameOf, hlook]; rfl⟩

end FprintdDevice

/-! ## Over a run -/

namespace FingerState

/-- List and map stay in step. -/
theorem wellFormed_move {s t : FingerState} {a : FingerAct} (h : s.dev.stored.WellFormed)
    (hs : s.move a = some t) : t.dev.stored.WellFormed := by
  cases a with
  | enroll finger listed file startErr =>
      cases hs
      dsimp only
      rw [FprintdDevice.stored_enroll]
      exact h
  | enrollCompleted file =>
      simp only [move, Option.ite_none_right_eq_some] at hs
      obtain ⟨-, hs⟩ := hs
      cases hs
      dsimp only
      rw [FprintdDevice.stored_enrollCompleted]
      split_ifs
      · exact h.setWithoutSave _ _
      · exact h
  | deleteFinger order finger deleteErr file =>
      cases hs
      dsimp only
      rw [FprintdDevice.stored_deleteFinger]
      split_ifs
      · exact h.delete _
      · exact h
  | deleteAllFingers deleteErr file =>
      cases hs
      dsimp only
      rw [FprintdDevice.stored_deleteAllFingers]
      split_ifs
      · exact FingerNameConfig.wellFormed_empty
      · exact h
  | listFingers listed file =>
      cases hs
      rcases listed with msg | r
      · exact h
      · dsimp only
        rw [FprintdDevice.stored_listFingers]
        split_ifs
        · exact h.getFingerNames _
        · exact h
  | renameFinger order finger newName file =>
      cases hs
      dsimp only
      rw [FprintdDevice.stored_renameFinger]
      split_ifs
      · exact h.apply (.rename order finger newName)
      · exact h

/-- **One step** keeps the names distinct exactly if the names that enter are free. -/
theorem distinct_move_iff {s t : FingerState} {a : FingerAct} (hf : s.dev.stored.WellFormed)
    (h : s.dev.stored.Distinct) (hs : s.move a = some t) :
    t.dev.stored.Distinct ↔ s.Free a := by
  cases a with
  | enroll finger listed file startErr =>
      cases hs
      dsimp only
      rw [FprintdDevice.stored_enroll]
      exact iff_of_true h trivial
  | enrollCompleted file =>
      simp only [move, Option.ite_none_right_eq_some] at hs
      obtain ⟨henrolling, hs⟩ := hs
      cases hs
      dsimp only [Free]
      rw [FprintdDevice.stored_enrollCompleted]
      simp only [henrolling, true_imp_iff]
      split_ifs with hworks
      · simp only [hworks, true_imp_iff]
        exact FingerNameConfig.distinct_insert_iff h
      · exact iff_of_true h (fun hw => absurd hw hworks)
  | deleteFinger order finger deleteErr file =>
      cases hs
      dsimp only
      rw [FprintdDevice.stored_deleteFinger]
      refine iff_of_true ?_ trivial
      split_ifs
      · exact h.delete hf _
      · exact h
  | deleteAllFingers deleteErr file =>
      cases hs
      dsimp only
      rw [FprintdDevice.stored_deleteAllFingers]
      refine iff_of_true ?_ trivial
      split_ifs
      · exact FingerNameConfig.distinct_empty
      · exact h
  | listFingers listed file =>
      cases hs
      rcases listed with msg | r
      · exact iff_of_true h trivial
      · dsimp only [Free]
        rw [FprintdDevice.stored_listFingers]
        split_ifs with hworks
        · simp only [hworks, true_imp_iff]
          exact FingerNameConfig.distinct_getFingerNames_iff h hf r.nodup
        · exact iff_of_true h (fun hw => absurd hw hworks)
  | renameFinger order finger newName file =>
      cases hs
      dsimp only [Free]
      rw [FprintdDevice.stored_renameFinger]
      split_ifs with hworks
      · simp only [hworks, true_imp_iff]
        exact FingerNameConfig.distinct_rename_iff h
      · exact iff_of_true h (fun hw => absurd hw hworks)

/-- **Finger names identify fingers** in every state of a run, exactly if every name that enters is
free by then. -/
theorem names_identify_iff (acts : List FingerAct) :
    (∀ cs (s : FingerState) us, cs <+: acts → run step init cs = some (s, us) →
      s.dev.Identifies) ↔ Along step Free init acts := by
  refine reached_iff_along (J := fun s : FingerState => s.dev.stored.WellFormed)
    (I := fun s : FingerState => s.dev.Identifies) ?_ ?_ ?_ FingerNameConfig.wellFormed_empty ?_
    acts
  · intro s a t u h hs
    exact wellFormed_move h (observed_eq_some.mp hs).1
  · intro s a t u hf h hs
    have hmove := (observed_eq_some.mp hs).1
    rw [FprintdDevice.identifies_iff (wellFormed_move hf hmove)]
    exact distinct_move_iff hf h.distinct hmove
  · intro s a hs
    cases a with
    | enrollCompleted file =>
        intro henrolling
        simp [step, move, henrolling] at hs
    | enroll | deleteFinger | deleteAllFingers | renameFinger => cases hs
    | listFingers => cases hs
  · exact (FprintdDevice.identifies_iff FingerNameConfig.wellFormed_empty).mpr
      FingerNameConfig.distinct_empty

/-- Nothing is enrolled, or two fingers. -/
def noPrints : Report := ⟨[], by decide, by decide⟩

def onePrint : Report := ⟨["left-thumb"], by decide, by decide⟩

/-- Two fingers are enrolled, and the second is then renamed to the name of the first. -/
def renamedToOther : List FingerAct :=
  [.enroll "a" (.ok noPrints) .works none, .enrollCompleted .works,
    .enroll "b" (.ok onePrint) .works none, .enrollCompleted .works,
    .renameFinger (.listed _ _) "b" "a" .works]

/-- **Two fingers of one name.** -/
theorem two_fingers_of_one_name :
    ¬ ∀ acts (s : FingerState) us, run step init acts = some (s, us) → s.dev.stored.Distinct := by
  intro hall
  have hrun : run step init renamedToOther =
      some (((run step init renamedToOther).getD (init, [])).1,
        ((run step init renamedToOther).getD (init, [])).2) := by
    rfl
  have heq := hall renamedToOther _ _ hrun "left-thumb" "left-index-finger" "a" (by decide)
    (by decide)
  exact absurd heq (by decide)

end FingerState

end LingmoAuthenticate.Fingerprint
