import LingmoAuthenticate.UKey.Services

/-!
# The services of the faces: `face/manager.go`

On every event of the interface directory the whole directory is loaded again, into the table that
is there: what a present file declares is right afterwards, and what no file declares any more is
not taken away.

* `lookup_loadAllDevices`: what a reload comes to.
* `devices_follow_iff`: the table follows the directory in a run exactly where no service has lost
  its last file when the last event is handled.
* `driver_tables_follow`: the tables of the keys and of the faces together.
-/

namespace LingmoAuthenticate.Face

open Lib AuthCommon UKey
open MultiFactor (Dir DirEvent Pending)

/-- The services, and those of them that a device could be made for. Source: `face/manager.go`,
`Manager`. -/
structure Devices where
  deviceMap : ServiceMap
  existDevice : List InterfaceConfig

/-- What a reload finds beside the directory: the order of its loop over the table, and the services
that a device can be made for. -/
structure Env where
  order : GoMap.RangeOrder String InterfaceConfigWithFileName
  newCommonDevice : InterfaceConfig → Bool

section devices

variable {α : Type} (unmarshal : α → InterfaceConfig) (isValid : String → Bool)

/-- Source: `face/manager.go`, `Manager.loadAllDevices`. -/
def loadAllDevices (env : Env) (dir : Dir α) (m : Devices) : Devices :=
  let deviceMap := loadAll unmarshal isValid dir interfaceTypeFace m.deviceMap
  { deviceMap
    existDevice := (env.order.visit deviceMap.entries).filterMap fun e =>
      if env.newCommonDevice e.2.toInterfaceConfig then some e.2.toInterfaceConfig else none }

/-- One event, of whatever kind and file. Source: `face/manager.go`, `Manager.dispatchFsEvents`; the
properties that are updated from the devices are left out. -/
def dispatch (env : Env) (dir : Dir α) (m : Devices) (_ev : DirEvent) : Devices :=
  loadAllDevices unmarshal isValid env dir m

/-- The directory, the events and the services. -/
abbrev FaceWatch (α : Type) := Watch α Devices

/-- One step. -/
abbrev FaceWatch.step (s : FaceWatch α) (a : WatchAction α Env) : Option (FaceWatch α × Unit) :=
  Watch.step (fun env dir m ev => dispatch unmarshal isValid env dir m ev) s a

/-- Source: `face/manager.go`, `newManager` and `Manager.init`. -/
def FaceWatch.init (env : Env) (dir : Dir α) : FaceWatch α :=
  ⟨dir, [], loadAllDevices unmarshal isValid env dir ⟨.empty, []⟩⟩

/-- The configuration that a file declares for the faces. -/
abbrev declaresFace (dir : Dir α) (f : String) : Option InterfaceConfig :=
  declares unmarshal isValid dir interfaceTypeFace f

/-- The table is the one that is built from scratch. -/
def Follows (s : FaceWatch α) : Prop :=
  ∀ env service, s.table.deviceMap.lookup service =
    (loadAllDevices unmarshal isValid env s.dir ⟨.empty, []⟩).deviceMap.lookup service

/-- When the last event is handled, every service of the table is declared by a file. -/
def NoneLeft (s : FaceWatch α) : WatchAction α Env → Prop
  | .handle _ => ∀ ev, s.events = [ev] → ∀ service, (s.table.deviceMap.lookup service).isSome →
      ∃ f c, declaresFace unmarshal isValid s.dir f = some c ∧ c.service = service
  | _ => True

/-- **A reload** gives the table that is built from scratch, exactly where each service that was
known is declared by a file. -/
theorem lookup_loadAllDevices (env : Env) (dir : Dir α) (m : Devices) :
    (∀ env' service, (loadAllDevices unmarshal isValid env dir m).deviceMap.lookup service =
        (loadAllDevices unmarshal isValid env' dir ⟨.empty, []⟩).deviceMap.lookup service) ↔
      ∀ service, (m.deviceMap.lookup service).isSome →
        ∃ f c, declaresFace unmarshal isValid dir f = some c ∧ c.service = service := by
  simp only [loadAllDevices]
  constructor
  · intro h service hservice
    by_contra hnot
    -- no file declares the service, so that it is left as it was
    have hleft : ∀ f c, declaresFace unmarshal isValid dir f = some c → c.service ≠ service := by
      intro f c hc hs
      exact hnot ⟨f, c, hc, hs⟩
    have heq := h env service
    rw [lookup_loadAll_of_not_declared unmarshal isValid hleft,
      lookup_loadAll_of_not_declared unmarshal isValid hleft] at heq
    rw [heq] at hservice
    cases hservice
  · intro h _ service
    by_cases hdeclared : ∃ f c, declaresFace unmarshal isValid dir f = some c ∧ c.service = service
    · obtain ⟨f, c, hc, rfl⟩ := hdeclared
      exact lookup_loadAll_of_declared unmarshal isValid hc _ _
    · have hleft : ∀ f c, declaresFace unmarshal isValid dir f = some c →
          c.service ≠ service := by
        intro f c hc hs
        exact hdeclared ⟨f, c, hc, hs⟩
      rw [lookup_loadAll_of_not_declared unmarshal isValid hleft,
        lookup_loadAll_of_not_declared unmarshal isValid hleft]
      rcases hm : m.deviceMap.lookup service with _ | e
      · rfl
      · exact absurd (h service (by rw [hm]; rfl)) hdeclared

/-- **One step**, where the table has followed the directory so far. -/
theorem follows_step_iff {s t : FaceWatch α} {a : WatchAction α Env} {u : Unit}
    (hs : s.step unmarshal isValid a = some (t, u)) :
    (t.events = [] → Follows unmarshal isValid t) ↔ NoneLeft unmarshal isValid s a := by
  obtain ⟨ev, hc⟩ | ⟨env, ev, rest, rfl, hev, rfl⟩ := Watch.step_cases _ hs
  · -- the event of the file that changed waits
    refine iff_of_true ?_ ?_
    · intro hevents
      rw [hc.events] at hevents
      simp at hevents
    · cases a with
      | handle env =>
          intro ev' hev'
          have hdrop := hc.events
          simp only [FaceWatch.step, Watch.step, Watch.move, hev', Option.map_some,
            Option.some.injEq, Prod.mk.injEq] at hs
          rw [← hs.1, hev'] at hdrop
          simp at hdrop
      | create | write | remove => trivial
  · rcases rest with _ | ⟨ev', rest⟩
    · simp only [NoneLeft, hev, List.cons.injEq, and_true, forall_eq', forall_const]
      exact lookup_loadAllDevices unmarshal isValid env s.dir s.table
    · simp [NoneLeft, hev]

/-- **The devices follow the directory.** In a run, the table is the one that is built from scratch
whenever all events are handled, exactly where no service has lost its last file when the last event
is handled. -/
theorem devices_follow_iff (env₀ : Env) (dir₀ : Dir α) (acts : List (WatchAction α Env)) :
    (∀ cs s us, cs <+: acts →
        run (FaceWatch.step unmarshal isValid) (.init unmarshal isValid env₀ dir₀) cs =
          some (s, us) → s.events = [] → Follows unmarshal isValid s) ↔
      Along (FaceWatch.step unmarshal isValid) (NoneLeft unmarshal isValid)
        (.init unmarshal isValid env₀ dir₀) acts := by
  refine reached_iff_along (J := fun _ => True) (I := fun s => s.events = [] →
    Follows unmarshal isValid s) (fun _ _ _ _ _ _ => trivial) ?_ ?_ trivial ?_ acts
  · intro s a t u _ _ hs
    exact follows_step_iff unmarshal isValid hs
  · intro s a hs
    cases a with
    | handle env =>
        intro ev hev
        simp [FaceWatch.step, Watch.step, Watch.move, hev] at hs
    | create | write | remove => trivial
  · intro _ env service
    rfl

/-! ## The tables of the keys and of the faces -/

/-- **The driver tables follow the interface directory.** In every run in which nothing goes wrong,
whenever all events are handled, the services of the keys are those that would be loaded from the
directory; and those of the faces are in a run, exactly where no service has lost its last file when
the last event is handled. -/
theorem driver_tables_follow :
    (∀ env₀ dir₀ acts s us,
      run (UKeyWatch.step unmarshal isValid) (.init unmarshal isValid env₀ dir₀) acts =
          some (s, us) →
        Along (UKeyWatch.step unmarshal isValid) (Undisturbed unmarshal isValid)
          (.init unmarshal isValid env₀ dir₀) acts →
        s.events = [] → ∀ service, s.table.uKeyServiceMap.lookup service =
          (Services.loadAllConfigs unmarshal isValid s.dir ⟨.empty, ""⟩).uKeyServiceMap.lookup
            service) ∧
    ∀ env₀ dir₀ acts,
      (∀ cs s us, cs <+: acts →
        run (FaceWatch.step unmarshal isValid) (.init unmarshal isValid env₀ dir₀) cs =
          some (s, us) → s.events = [] → Follows unmarshal isValid s) ↔
      Along (FaceWatch.step unmarshal isValid) (NoneLeft unmarshal isValid)
        (.init unmarshal isValid env₀ dir₀) acts := by
  constructor
  · intro env₀ dir₀ acts s us hrun hu hhandled service
    exact services_follow unmarshal isValid hrun hu hhandled service
  · intro env₀ dir₀ acts
    exact devices_follow_iff unmarshal isValid env₀ dir₀ acts

end devices

/-! ## Files of keys and of faces -/

/-- A file that declares a service of a key. -/
def keyFile : String :=
  "\x7b\"service\":\"com.lingmo.ukey\",\"path\":\"/com/lingmo/ukey\",\"interface\":" ++
    "\"com.lingmo.ukey\",\"type\":2,\"storage_type\":1\x7d"

/-- The same with another path. -/
def movedFile : String :=
  "\x7b\"service\":\"com.lingmo.ukey\",\"path\":\"/com/lingmo/usb\",\"interface\":" ++
    "\"com.lingmo.ukey\",\"type\":2,\"storage_type\":1\x7d"

/-- A file that declares another service of a key. -/
def usbFile : String :=
  "\x7b\"service\":\"com.lingmo.usb\",\"path\":\"/com/lingmo/usb\",\"interface\":" ++
    "\"com.lingmo.usb\",\"type\":2,\"storage_type\":1\x7d"

/-- A file that declares a service of faces. -/
def faceFile : String :=
  "\x7b\"service\":\"com.lingmo.face\",\"path\":\"/com/lingmo/face\",\"interface\":" ++
    "\"com.lingmo.face\",\"type\":4,\"storage_type\":1\x7d"

/-- What the files declare, and what is left of others. -/
def unmarshalFile (content : String) : InterfaceConfig :=
  if content = keyFile then ⟨"com.lingmo.ukey", "/com/lingmo/ukey", "com.lingmo.ukey", 2, 1⟩
  else if content = movedFile then ⟨"com.lingmo.ukey", "/com/lingmo/usb", "com.lingmo.ukey", 2, 1⟩
  else if content = usbFile then ⟨"com.lingmo.usb", "/com/lingmo/usb", "com.lingmo.usb", 2, 1⟩
  else if content = faceFile then ⟨"com.lingmo.face", "/com/lingmo/face", "com.lingmo.face", 4, 1⟩
  else ⟨"", "", "", 0, 0⟩

/-- The paths of the files are valid ones. -/
def isValidPath (path : String) : Bool :=
  path = "/com/lingmo/ukey" || path = "/com/lingmo/usb" || path = "/com/lingmo/face"

/-- The file is there. -/
def keyPath : String := "/usr/share/deepin-authentication/interfaces/ukey.json"

/-- The file of the other key. -/
def usbPath : String := "/usr/share/deepin-authentication/interfaces/usb.json"

/-- Loops run over the tables as they are listed, and no default is saved. -/
def listedEnv : UKey.Env := ⟨.listed _ _, .listed _ _, none⟩

/-- An empty directory is watched. -/
theorem init_empty : UKeyWatch.init unmarshalFile isValidPath listedEnv ∅ =
    ⟨∅, [], ⟨.empty, ""⟩⟩ := by
  have hload : loadAll unmarshalFile isValidPath ∅ interfaceTypeUKey .empty = .empty := by
    unfold loadAll getInterfaceConfigs readDir
    rw [AList.keys_empty, List.mergeSort_nil]
    rfl
  unfold UKeyWatch.init Services.init Services.loadAllConfigs
  dsimp only
  rw [hload]
  rfl

/-- Only the file of the faces declares a service of faces. -/
theorem service_of_declaresFace {dir : Dir String} {f : String} {c : InterfaceConfig}
    (h : declaresFace unmarshalFile isValidPath dir f = some c) : c.service = "com.lingmo.face" := by
  unfold declaresFace declares loadInterfaceConfig at h
  rcases hl : dir.lookup f with _ | content
  · rw [hl] at h
    cases h
  rw [hl] at h
  dsimp only at h
  split_ifs at h with htype
  · cases h
  · cases h
    unfold unmarshalFile at htype ⊢
    split_ifs at htype ⊢ <;> first
      | rfl
      | exact absurd (by decide) htype
  · cases h

/-- What was loaded of an empty directory and of others with these files. -/
theorem service_of_loaded (env : Env) (dir : Dir String) {m : Devices}
    (hm : ∀ service, (m.deviceMap.lookup service).isSome → service = "com.lingmo.face") :
    ∀ service,
      ((loadAllDevices unmarshalFile isValidPath env dir m).deviceMap.lookup service).isSome →
        service = "com.lingmo.face" := by
  intro service h
  by_contra hne
  have hother : ∀ f c, declaresFace unmarshalFile isValidPath dir f = some c →
      c.service ≠ service := by
    rintro f c hc rfl
    exact hne (service_of_declaresFace hc)
  have hleft : ((loadAllDevices unmarshalFile isValidPath env dir m).deviceMap.lookup service) =
      m.deviceMap.lookup service := lookup_loadAll_of_not_declared unmarshalFile isValidPath hother _
  rw [hleft] at h
  exact hne (hm service h)

/-- Two keys come, and the first one goes. -/
def keyChanges : List (WatchAction String UKey.Env) :=
  [.create keyPath keyFile, .handle listedEnv, .create usbPath usbFile, .handle listedEnv,
    .remove keyPath, .handle listedEnv]

/-- All devices can be made. -/
def faceEnv : Env := ⟨.listed _ _, fun _ => true⟩

/-- A camera comes, a second file names it too, and the first one goes. -/
def faceChanges : List (WatchAction String Env) :=
  [.create "a.json" faceFile, .handle faceEnv, .create "b.json" faceFile, .handle faceEnv,
    .remove "a.json", .handle faceEnv]

/-- Files are created and removed, and their events are handled. -/
theorem driver_tables_follow_changes :
    (∃ s us, run (UKeyWatch.step unmarshalFile isValidPath)
        (.init unmarshalFile isValidPath listedEnv ∅) keyChanges = some (s, us) ∧
      (s.table.uKeyServiceMap.lookup "com.lingmo.usb").isSome = true ∧
      ∀ service, s.table.uKeyServiceMap.lookup service =
        (Services.loadAllConfigs unmarshalFile isValidPath s.dir
          ⟨.empty, ""⟩).uKeyServiceMap.lookup service) ∧
    ∀ cs s us, cs <+: faceChanges →
      run (FaceWatch.step unmarshalFile isValidPath)
          (.init unmarshalFile isValidPath faceEnv ∅) cs = some (s, us) →
        s.events = [] → Follows unmarshalFile isValidPath s := by
  constructor
  · obtain ⟨s, us, hr, hevents, hsome⟩ : ∃ s us, run (UKeyWatch.step unmarshalFile isValidPath)
        (.init unmarshalFile isValidPath listedEnv ∅) keyChanges = some (s, us) ∧
        s.events = [] ∧ (s.table.uKeyServiceMap.lookup "com.lingmo.usb").isSome = true := by
      rw [init_empty]
      exact ⟨_, _, rfl, rfl, rfl⟩
    refine ⟨s, us, hr, hsome,
      (driver_tables_follow unmarshalFile isValidPath).1 _ _ _ s us hr ?_ hevents⟩
    rw [init_empty]
    refine (along_cons_of_eq rfl).mpr ⟨trivial, (along_cons_of_eq rfl).mpr ⟨?created, ?_⟩⟩
    case created =>
      rintro ev rest ⟨⟩ c g c' - hc' -
      -- the directory holds one file
      have hg : g = keyPath := by
        by_contra hne
        have hsome := lookup_of_declares unmarshalFile isValidPath hc'
        rw [AList.lookup_insert_ne hne] at hsome
        cases hsome
      exact .inl hg.le
    refine (along_cons_of_eq rfl).mpr ⟨trivial, (along_cons_of_eq rfl).mpr ⟨?second, ?_⟩⟩
    case second =>
      rintro ev rest ⟨⟩ c g c' hc hc' hservice
      have hg : g = usbPath ∨ g = keyPath := by
        by_contra hne
        rw [not_or] at hne
        have hsome := lookup_of_declares unmarshalFile isValidPath hc'
        rw [AList.lookup_insert_ne hne.1, AList.lookup_insert_ne hne.2] at hsome
        cases hsome
      rcases hg with rfl | rfl
      · exact .inl le_rfl
      · -- the first file declares another service
        cases hc
        cases hc'
        exact absurd hservice (by decide)
    refine (along_cons_of_eq rfl).mpr ⟨trivial, (along_cons_of_eq rfl).mpr ⟨?removed, trivial⟩⟩
    rintro ev rest ⟨⟩ service e g c he hfile hc rfl
    have hg : g = usbPath := by
      by_contra hne
      have hsome := lookup_of_declares unmarshalFile isValidPath hc
      by_cases hkey : g = keyPath
      · rw [hkey] at hsome
        cases hsome
      · rw [AList.lookup_erase_ne hkey, AList.lookup_insert_ne hne,
          AList.lookup_insert_ne hkey] at hsome
        cases hsome
    subst hg
    cases hc
    cases he
    exact absurd hfile (by decide)
  · refine ((driver_tables_follow unmarshalFile isValidPath).2 faceEnv ∅ faceChanges).mpr ?_
    have h₀ := service_of_loaded faceEnv ∅ (m := ⟨.empty, []⟩) fun _ h => by cases h
    refine (along_cons_of_eq rfl).mpr ⟨trivial, (along_cons_of_eq rfl).mpr ⟨?_, ?_⟩⟩
    · rintro ev ⟨⟩ service h
      exact ⟨"a.json", _, rfl, (h₀ service h).symm⟩
    have h₁ := service_of_loaded faceEnv ((∅ : Dir String).insert "a.json" faceFile) h₀
    refine (along_cons_of_eq rfl).mpr ⟨trivial, (along_cons_of_eq rfl).mpr ⟨?_, ?_⟩⟩
    · rintro ev ⟨⟩ service h
      exact ⟨"a.json", _, rfl, (h₁ service h).symm⟩
    have h₂ := service_of_loaded faceEnv
      (((∅ : Dir String).insert "a.json" faceFile).insert "b.json" faceFile) h₁
    refine (along_cons_of_eq rfl).mpr ⟨trivial, (along_cons_of_eq rfl).mpr ⟨?_, trivial⟩⟩
    rintro ev ⟨⟩ service h
    exact ⟨"b.json", _, rfl, (h₂ service h).symm⟩

/-- A file is written, and the table keeps what it held before. -/
theorem written_file_ignored :
    ¬ ∀ (α : Type) (unmarshal : α → InterfaceConfig) (isValid : String → Bool) env₀ dir₀ acts s us,
      run (UKeyWatch.step unmarshal isValid) (.init unmarshal isValid env₀ dir₀) acts =
          some (s, us) → s.events = [] → ∀ service, s.table.uKeyServiceMap.lookup service =
        (Services.loadAllConfigs unmarshal isValid s.dir ⟨.empty, ""⟩).uKeyServiceMap.lookup
          service := by
  intro hall
  obtain ⟨s, us, hr, hevents, hkept, hdir, hkeys⟩ : ∃ s us,
      run (UKeyWatch.step unmarshalFile isValidPath) (.init unmarshalFile isValidPath listedEnv ∅)
        [.create keyPath keyFile, .handle listedEnv, .write keyPath movedFile, .handle listedEnv] =
          some (s, us) ∧ s.events = [] ∧
      (s.table.uKeyServiceMap.lookup "com.lingmo.ukey").map (·.path) = some "/com/lingmo/ukey" ∧
      declaresUKey unmarshalFile isValidPath s.dir keyPath =
        some ⟨"com.lingmo.ukey", "/com/lingmo/usb", "com.lingmo.ukey", 2, 1⟩ ∧
      s.dir.keys = [keyPath] := by
    rw [init_empty]
    exact ⟨_, _, rfl, rfl, rfl, rfl, rfl⟩
  have h := hall String unmarshalFile isValidPath listedEnv ∅ _ s us hr hevents "com.lingmo.ukey"
  obtain ⟨e, he, hpath⟩ := Option.map_eq_some_iff.mp hkept
  rw [he] at h
  -- from scratch, the record would be what the one file declares
  have hdeclared : declaresUKey unmarshalFile isValidPath s.dir e.fileName =
      some e.toInterfaceConfig :=
    (agrees_loadAll unmarshalFile isValidPath s.dir interfaceTypeUKey).entries _ e h.symm
  have hfile : e.fileName ∈ s.dir.keys :=
    AList.lookup_isSome.mp (lookup_of_declares unmarshalFile isValidPath hdeclared)
  rw [hkeys, List.mem_singleton] at hfile
  rw [hfile, hdir, Option.some.injEq] at hdeclared
  rw [← hdeclared] at hpath
  exact absurd hpath (by decide)

end LingmoAuthenticate.Face
