import LingmoAuthenticate.Fingerprint.FprintdDevice

/-!
# Which names may be enrolled: `fprintd_device.go`, `enroll`

An enrolment looks for its name in the map as it is kept. A listing goes through the list that is
kept beside the map, leaves out what `fprintd` does not report, and adds what it reports besides.

* `mem_getFingerNames_iff`: which names are listed, of whatever is kept.
* `enroll_agrees_iff`: a name is refused exactly where it is listed, and an enrolment that returns
  no error has been started, exactly if the file is read, and the name is kept exactly where it is
  listed; where all fingers are enrolled the name must not be listed.
-/

namespace LingmoAuthenticate.Fingerprint

open Lib Lib.GoMap

/-! ## What is listed -/

namespace FingerNameConfig

/-- Some finger has the name. -/
def Keeps (f : FingerNameConfig) (name : String) : Prop :=
  ∃ v, f.FingerMap.lookup v = some name

/-- The name is that of a finger that is reported and in the list; or, unless the list has as many
of these as there are, the finger itself is reported and not in the list. -/
def Shows (f : FingerNameConfig) (stdNames : List String) (name : String) : Prop :=
  (∃ v ∈ f.StdNames, v ∈ stdNames ∧ (f.FingerMap.lookup v).getD "" = name) ∨
    stdNames.length ≠ (f.StdNames.filter fun v => v ∈ stdNames).length ∧
      name ∈ stdNames ∧ name ∉ f.StdNames

variable {f : FingerNameConfig} {stdNames : List String} {name : String}

theorem isFingerExists_iff : f.isFingerExists name = true ↔ f.Keeps name := by
  simp only [isFingerExists, List.any_eq_true, decide_eq_true_eq, Keeps]
  constructor
  · rintro ⟨⟨v, x⟩, he, rfl⟩
    exact ⟨v, AList.mem_lookup_iff.mpr he⟩
  · rintro ⟨v, hv⟩
    exact ⟨⟨v, name⟩, AList.mem_lookup_iff.mp hv, rfl⟩

theorem mem_mappedNames : name ∈ f.mappedNames stdNames ↔
    ∃ v ∈ f.StdNames, v ∈ stdNames ∧ (f.FingerMap.lookup v).getD "" = name := by
  simp [mappedNames, and_assoc]

/-- **Which names are listed.** -/
theorem mem_getFingerNames_iff (hnd : stdNames.Nodup) :
    name ∈ (f.getFingerNames stdNames).1 ↔ f.Shows stdNames name := by
  unfold getFingerNames Shows
  dsimp only
  rw [mappedNames, List.length_map, ← mappedNames, ← mem_mappedNames]
  split_ifs with hlen
  · simp [hlen]
  · rw [foldl_addMissing_fst hnd, List.mem_append, mem_missing]
    simp [hlen]

/-- Of a list that is in step with the map: the names of the fingers that are reported. -/
theorem shows_iff (h : f.WellFormed) (hnd : stdNames.Nodup) :
    f.Shows stdNames name ↔ ∃ v ∈ stdNames, f.nameOf v = name := by
  rw [← mem_getFingerNames_iff hnd, (perm_getFingerNames h hnd).mem_iff, List.mem_map]

/-- **Where what is kept and what is listed differ**: by the name of a finger that is gone, unless
another has it, or by a finger that is not known, unless its name is one that is kept. -/
theorem keeps_iff_shows_iff (h : f.WellFormed) (hnd : stdNames.Nodup) :
    (f.Keeps name ↔ f.Shows stdNames name) ↔
      (∀ v, f.FingerMap.lookup v = some name → v ∉ stdNames → ∃ w ∈ stdNames, f.nameOf w = name) ∧
        (name ∈ stdNames → name ∉ f.StdNames → f.Keeps name) := by
  rw [shows_iff h hnd]
  constructor
  · intro hiff
    constructor
    · intro v hv _
      exact hiff.mp ⟨v, hv⟩
    · intro hmem hnot
      refine hiff.mpr ⟨name, hmem, ?_⟩
      rw [nameOf, h.lookup_of_notMem hnot]
      rfl
  · rintro ⟨hgone, hunknown⟩
    constructor
    · rintro ⟨v, hv⟩
      by_cases hmem : v ∈ stdNames
      · exact ⟨v, hmem, by rw [nameOf, hv]; rfl⟩
      · exact hgone v hv hmem
    · rintro ⟨v, hmem, hname⟩
      by_cases hstd : v ∈ f.StdNames
      · obtain ⟨x, hx⟩ := h.lookup_of_mem hstd
        rw [nameOf, hx, Option.getD_some] at hname
        exact ⟨v, hname ▸ hx⟩
      · rw [nameOf, h.lookup_of_notMem hstd, Option.getD_none] at hname
        exact hunknown (hname ▸ hmem) (hname ▸ hstd)

end FingerNameConfig

/-! ## What is to hold -/

namespace FprintdDevice

/-- **The name is refused exactly where it is listed, and what is not refused has been started**:
for a finger that is not reported, which has the name when the enrolment is completed. -/
structure EnrollAgrees (d : FprintdDevice) (finger : String) (listed : Except String Report)
    (file : FileEnv) (startErr : Option String) : Prop where
  refused_iff : (d.enroll finger listed file startErr).err = some .fingerExists ↔
    ∃ names, (d.listFingers listed file).1 = .ok names ∧ finger ∈ names
  started : (d.enroll finger listed file startErr).err = none → ∃ v ∈ standardFinger,
    (d.enroll finger listed file startErr).enrollStart = some v ∧
      (∀ r, listed = .ok r → v ∉ r.names) ∧
      ((d.enroll finger listed file startErr).dev.enrollCompleted
        .works).stored.FingerMap.lookup v = some finger

/-- The file can be read, and the name is kept where it is listed, and only there. Where the
fingers are said to have no prints nothing is listed; where each has one, the name must not be
listed, or cannot. -/
def EnrollFits (d : FprintdDevice) (finger : String) (file : FileEnv) :
    Except String Report → Prop
  | .error msg => msg = "Failed to discover prints" →
      file.loadErr = none ∧ ¬ d.stored.Keeps finger
  | .ok r =>
      if ∀ v ∈ standardFinger, v ∈ r.names then
        file.loadErr = none → ¬ d.stored.Shows r.names finger
      else file.loadErr = none ∧ (d.stored.Keeps finger ↔ d.stored.Shows r.names finger)

variable {d : FprintdDevice} {finger : String} {listed : Except String Report} {file : FileEnv}
  {startErr : Option String} {fin : List String}

/-! ## What an enrolment comes to -/

theorem freeFinger_eq_none : freeFinger fin = none ↔ ∀ v ∈ standardFinger, v ∈ fin := by
  simp [freeFinger]

theorem freeFinger_eq_some {v : String} (h : freeFinger fin = some v) :
    v ∈ standardFinger ∧ v ∉ fin := by
  unfold freeFinger at h
  exact ⟨List.mem_of_find?_eq_some h, by simpa using List.find?_some h⟩

/-- All fingers have prints. -/
theorem enroll_tooMany (hfin : enrolled listed = .ok fin) (hfree : freeFinger fin = none) :
    d.enroll finger listed file startErr = ⟨some .tooMany, none, d⟩ := by
  simp only [enroll, hfin, hfree]

/-- The file cannot be read, and no error is returned. -/
theorem enroll_unread {v msg : String} (hfin : enrolled listed = .ok fin)
    (hfree : freeFinger fin = some v) (hload : file.loadErr = some msg) :
    d.enroll finger listed file startErr = ⟨none, none, d⟩ := by
  simp only [enroll, hfin, hfree, newFingerNameConfig, hload]

/-- The name is kept. -/
theorem enroll_kept {v : String} (hfin : enrolled listed = .ok fin)
    (hfree : freeFinger fin = some v) (hload : file.loadErr = none)
    (hkept : d.stored.Keeps finger) :
    d.enroll finger listed file startErr = ⟨some .fingerExists, none, d⟩ := by
  simp only [enroll, hfin, hfree, newFingerNameConfig, hload]
  rw [if_pos (FingerNameConfig.isFingerExists_iff.mpr hkept)]

/-- The name is not kept: the enrolment is started, for a finger that has no print. -/
theorem enroll_started {v : String} (hfin : enrolled listed = .ok fin)
    (hfree : freeFinger fin = some v) (hload : file.loadErr = none)
    (hkept : ¬ d.stored.Keeps finger) :
    d.enroll finger listed file startErr =
      match startErr with
      | some msg => ⟨some (.core msg), some v, d⟩
      | none => ⟨none, some v, { d with curEnrollFinger := ⟨v, finger⟩ }⟩ := by
  have hnew := mt FingerNameConfig.isFingerExists_iff.mp hkept
  rcases startErr with _ | msg
  · simp only [enroll, hfin, hfree, newFingerNameConfig, hload]
    exact if_neg hnew
  · simp only [enroll, hfin, hfree, newFingerNameConfig, hload]
    exact if_neg hnew

/-- A name that is not kept is not refused, and what is started is recorded. -/
theorem started_of_not_kept {v : String} (startErr : Option String)
    (hfin : enrolled listed = .ok fin) (hfree : freeFinger fin = some v)
    (hload : file.loadErr = none) (hkept : ¬ d.stored.Keeps finger) :
    (d.enroll finger listed file startErr).err ≠ some .fingerExists ∧
      ((d.enroll finger listed file startErr).err = none →
        (d.enroll finger listed file startErr).enrollStart = some v ∧
          ((d.enroll finger listed file startErr).dev.enrollCompleted
            .works).stored.FingerMap.lookup v = some finger) := by
  rw [enroll_started hfin hfree hload hkept]
  cases startErr with
  | some msg => exact ⟨by simp, by simp⟩
  | none =>
      refine ⟨by simp, fun _ => ⟨rfl, ?_⟩⟩
      rw [stored_enrollCompleted, if_pos rfl]
      exact AList.lookup_insert _

/-- Which names a listing returns. -/
theorem mem_listFingers_iff {r : Report} :
    (∃ names, (d.listFingers (.ok r) file).1 = .ok names ∧ finger ∈ names) ↔
      file.loadErr = none ∧ d.stored.Shows r.names finger := by
  rw [← FingerNameConfig.mem_getFingerNames_iff r.nodup]
  obtain ⟨_ | msg, _⟩ := file
  · simp [listFingers, newFingerNameConfig]
  · simp [listFingers, newFingerNameConfig]

/-- Nothing is listed where there is an error. -/
theorem not_mem_listFingers {msg : String} :
    ¬ ∃ names, (d.listFingers (.error msg) file).1 = .ok names ∧ finger ∈ names := by
  simp [listFingers]

/-- **Where some finger is free**, and the file is read or not. -/
theorem agrees_iff_of_free {v : String} {P : Prop} (hfin : enrolled listed = .ok fin)
    (hfree : freeFinger fin = some v) (hnew : ∀ r, listed = .ok r → v ∉ r.names)
    (hlisted : (∃ names, (d.listFingers listed file).1 = .ok names ∧ finger ∈ names) ↔
      file.loadErr = none ∧ P) :
    d.EnrollAgrees finger listed file startErr ↔
      file.loadErr = none ∧ (d.stored.Keeps finger ↔ P) := by
  rcases hload : file.loadErr with _ | msg
  · simp only [hload, true_and] at hlisted ⊢
    by_cases hkept : d.stored.Keeps finger
    · simp only [hkept, true_iff]
      have hrefused : d.enroll finger listed file startErr = ⟨some .fingerExists, none, d⟩ :=
        enroll_kept hfin hfree hload hkept
      constructor
      · intro h
        exact hlisted.mp (h.refused_iff.mp (by rw [hrefused]))
      · intro hP
        constructor
        · rw [hrefused]
          exact iff_of_true rfl (hlisted.mpr hP)
        · rw [hrefused]
          simp
    · simp only [hkept, false_iff]
      obtain ⟨hne, hstart⟩ := started_of_not_kept startErr hfin hfree hload hkept
      constructor
      · intro h hP
        exact hne (h.refused_iff.mpr (hlisted.mpr hP))
      · intro hP
        constructor
        · exact iff_of_false hne (fun hl => hP (hlisted.mp hl))
        · intro hnone
          obtain ⟨hcall, hrecorded⟩ := hstart hnone
          exact ⟨v, (freeFinger_eq_some hfree).1, hcall, hnew, hrecorded⟩
  · refine iff_of_false ?_ (by simp)
    intro h
    have hunread : d.enroll finger listed file startErr = ⟨none, none, d⟩ :=
      enroll_unread hfin hfree hload
    obtain ⟨w, -, hcall, -⟩ := h.started (by rw [hunread])
    rw [hunread] at hcall
    cases hcall

/-- **Enrolment accepts exactly the free names**, and what it accepts it starts, exactly if what is
kept agrees with what is reported, of whatever is kept. Of a list that is in step with the map, they
differ by the name of a finger that is gone, or by a finger that is not known. -/
theorem enroll_agrees_iff (d : FprintdDevice) (finger : String) (listed : Except String Report)
    (file : FileEnv) (startErr : Option String) :
    (d.EnrollAgrees finger listed file startErr ↔ d.EnrollFits finger file listed) ∧
    ∀ (f : FingerNameConfig) (stdNames : List String) (name : String), f.WellFormed →
      stdNames.Nodup → ((f.Keeps name ↔ f.Shows stdNames name) ↔
        (∀ v, f.FingerMap.lookup v = some name → v ∉ stdNames →
          ∃ w ∈ stdNames, f.nameOf w = name) ∧
        (name ∈ stdNames → name ∉ f.StdNames → f.Keeps name)) := by
  refine ⟨?_, fun f stdNames name h hnd => FingerNameConfig.keeps_iff_shows_iff h hnd⟩
  cases listed with
  | error msg =>
      by_cases hmsg : msg = "Failed to discover prints"
      · have hfin : enrolled (.error msg) = .ok [] := if_pos hmsg
        have hlisted : (∃ names, (d.listFingers (.error msg) file).1 = .ok names ∧
            finger ∈ names) ↔ file.loadErr = none ∧ False := by
          rw [and_false]
          exact iff_of_false not_mem_listFingers id
        rw [agrees_iff_of_free hfin (v := "left-thumb") rfl (by simp) hlisted, EnrollFits]
        simp [hmsg]
      · have hfin : d.enroll finger (.error msg) file startErr = ⟨some (.core msg), none, d⟩ := by
          simp [enroll, enrolled, hmsg]
        refine iff_of_true ⟨?_, ?_⟩ (fun h => absurd h hmsg)
        · rw [hfin]
          exact iff_of_false (by simp) not_mem_listFingers
        · rw [hfin]
          simp
  | ok r =>
      have hfin : enrolled (.ok r) = .ok r.names := rfl
      rw [EnrollFits]
      split_ifs with hall
      · have hmany : d.enroll finger (.ok r) file startErr = ⟨some .tooMany, none, d⟩ :=
          enroll_tooMany hfin (freeFinger_eq_none.mpr hall)
        constructor
        · intro h hload hshows
          have hrefused := h.refused_iff.mpr (mem_listFingers_iff.mpr ⟨hload, hshows⟩)
          rw [hmany] at hrefused
          cases hrefused
        · intro h
          constructor
          · rw [hmany, mem_listFingers_iff]
            exact iff_of_false (by simp) (fun hl => h hl.1 hl.2)
          · rw [hmany]
            simp
      · obtain ⟨v, hfree⟩ : ∃ v, freeFinger r.names = some v := by
          rw [← Option.ne_none_iff_exists']
          exact mt freeFinger_eq_none.mp hall
        apply agrees_iff_of_free hfin hfree
        · intro r' hr'
          cases hr'
          exact (freeFinger_eq_some hfree).2
        · exact mem_listFingers_iff

/-- **A name whose finger is gone**: the print of the left thumb has been deleted elsewhere, and its
name is refused though nothing is listed. -/
theorem stale_name_refused : ¬ ∀ (d : FprintdDevice) (finger : String)
    (listed : Except String Report) (file : FileEnv) (startErr : Option String),
    d.EnrollAgrees finger listed file startErr := by
  intro hall
  have h := hall ⟨⟨"", ""⟩, FingerNameConfig.empty.setWithoutSave "left-thumb" "a"⟩ "a"
    (.ok FingerState.noPrints) .works none
  obtain ⟨names, hnames, hmem⟩ := h.refused_iff.mp rfl
  cases hnames
  cases hmem

end FprintdDevice

end LingmoAuthenticate.Fingerprint
