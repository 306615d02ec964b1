import Mathlib.Data.List.Induction
import Mathlib.Data.List.Sort
import Mathlib.Data.String.Basic
import LingmoAuthenticate.MultiFactor.Directory

/-!
# The interface directory: `authcommon/config.go`

Every driver declares its D-Bus service in a file of one directory. The managers of the keys and of
the faces each keep a table of the services that were declared for them, load it from the directory
once, and then follow the events of a watcher of their own.

* `declares dir type0 f`: the configuration that the file `f` declares.
* `ServiceMap`: a table by service, in which every configuration stands under its own service.
* `Agrees`: what a table that is built from scratch holds (`agrees_loadAll`); there is one such
  table (`Agrees.lookup_eq`).
* `Watch`: a directory, the events to be handled and a table, whatever handles them.
* `Reports`: the events of a file take turns, from whether it was there to whether it is.
-/

namespace LingmoAuthenticate.AuthCommon

open Lib
open MultiFactor (Dir DirEvent FileOp Pending)

/-! ## Declarations -/

/-- Source: `authcommon/config.go`, `InterfaceConfig`. -/
structure InterfaceConfig where
  service : String
  path : String
  interface : String
  type : ℤ
  storageType : ℤ
  deriving DecidableEq, Repr

/-- Source: `authcommon/config.go`, `InterfaceConfigWithFileName`. -/
structure InterfaceConfigWithFileName extends InterfaceConfig where
  fileName : String
  deriving DecidableEq, Repr

/-- Source: `authcommon/config.go`, `InterfaceTypeUKey`. -/
def interfaceTypeUKey : ℤ := 2

/-- Source: `authcommon/config.go`, `InterfaceTypeFace`. -/
def interfaceTypeFace : ℤ := 4

/-! ## Tables by service -/

/-- The configurations that are known, each under its own service (`service_eq`), with the file that
each was read from. -/
structure ServiceMap where
  entries : GoMap String InterfaceConfigWithFileName
  service_eq : ∀ service config, entries.lookup service = some config → config.service = service

namespace ServiceMap

/-- Nothing is known. -/
def empty : ServiceMap := ⟨∅, fun _ _ h => by simp at h⟩

/-- A configuration takes the place of the one of its service. -/
def record (m : ServiceMap) (config : InterfaceConfigWithFileName) : ServiceMap where
  entries := m.entries.insert config.service config
  service_eq service config' h := by
    by_cases hs : service = config.service
    · subst hs
      rw [AList.lookup_insert, Option.some.injEq] at h
      rw [h]
    · rw [AList.lookup_insert_ne hs] at h
      exact m.service_eq service config' h

/-- A service is forgotten. -/
def delete (m : ServiceMap) (service : String) : ServiceMap where
  entries := m.entries.erase service
  service_eq service' config h := by
    by_cases hs : service' = service
    · rw [hs, AList.lookup_erase] at h
      cases h
    · rw [AList.lookup_erase_ne hs] at h
      exact m.service_eq service' config h

/-- The configuration of a service. -/
def lookup (m : ServiceMap) (service : String) : Option InterfaceConfigWithFileName :=
  m.entries.lookup service

@[simp] theorem lookup_empty (service : String) : empty.lookup service = none := rfl

theorem lookup_record (m : ServiceMap) (config : InterfaceConfigWithFileName) (service : String) :
    (m.record config).lookup service =
      if service = config.service then some config else m.lookup service := by
  unfold lookup record
  split_ifs with hs
  · rw [hs, AList.lookup_insert]
  · exact AList.lookup_insert_ne hs

theorem lookup_delete (m : ServiceMap) (service service' : String) :
    (m.delete service).lookup service' =
      if service' = service then none else m.lookup service' := by
  unfold lookup delete
  split_ifs with hs
  · rw [hs, AList.lookup_erase]
  · exact AList.lookup_erase_ne hs

/-- Of the configurations that are recorded one after the other, the last one of a service stays. -/
theorem lookup_foldl_record (configs : List InterfaceConfigWithFileName) (m : ServiceMap)
    (service : String) :
    (configs.foldl record m).lookup service =
      (configs.reverse.find? fun config => config.service = service).or (m.lookup service) := by
  induction configs using List.reverseRecOn with
  | nil => rfl
  | append_singleton configs config ih =>
      rw [List.foldl_append, List.foldl_cons, List.foldl_nil, lookup_record, List.reverse_append,
        List.reverse_singleton, List.singleton_append, List.find?_cons]
      by_cases hs : service = config.service
      · simp [hs]
      · rw [if_neg hs, ih]
        have hs' : decide (config.service = service) = false := by
          simpa using fun h : config.service = service => hs h.symm
        rw [hs']

/-- The file is one of those that the table was made from. -/
def Recorded (m : ServiceMap) (file : String) : Prop :=
  ∃ service config, m.lookup service = some config ∧ config.fileName = file

end ServiceMap

section declarations

variable {α : Type} (unmarshal : α → InterfaceConfig) (isValid : String → Bool)

/-- What `json.Unmarshal` leaves of the content is looked at, and not whether it fails; `isValid`
says which paths are valid ones of D-Bus.
Source: `authcommon/config.go`, `LoadInterfaceConfig`. -/
def loadInterfaceConfig (dir : Dir α) (filename : String) (type0 : ℤ) :
    Except String InterfaceConfig :=
  match dir.lookup filename with
  | none => .error ("open " ++ filename ++ ": no such file or directory")
  | some content =>
      let ifcCfg := unmarshal content
      if type0 ≠ ifcCfg.type then
        .error s!"expect type {type0} not matched with {ifcCfg.type}"
      else if isValid ifcCfg.path then .ok ifcCfg
      else .error ("interface config file " ++ filename.quote ++ ", path " ++
        ifcCfg.path.quote ++ " is invalid")

/-- The configuration that a file declares. -/
def declares (dir : Dir α) (type0 : ℤ) (filename : String) : Option InterfaceConfig :=
  (loadInterfaceConfig unmarshal isValid dir filename type0).toOption

/-- The names of the files, in their order. Source: `ioutil.ReadDir`. -/
def readDir (dir : Dir α) : List String := dir.keys.mergeSort (· ≤ ·)

/-- Files that cannot be loaded are passed over.
Source: `authcommon/config.go`, `GetInterfaceConfigs`. -/
def getInterfaceConfigs (dir : Dir α) (type0 : ℤ) : List InterfaceConfigWithFileName :=
  (readDir dir).filterMap fun filename =>
    (declares unmarshal isValid dir type0 filename).map fun config => ⟨config, filename⟩

/-- The configurations of a directory are added to a table.
Source: the loops of `ukey/manager.go`, `Manager.loadAllConfigs`, and `face/manager.go`,
`Manager.loadAllDevices`. -/
def loadAll (dir : Dir α) (type0 : ℤ) (m : ServiceMap) : ServiceMap :=
  (getInterfaceConfigs unmarshal isValid dir type0).foldl ServiceMap.record m

/-! ## A table that is built from scratch -/

/-- Files that are not there declare nothing. -/
theorem lookup_of_declares {dir : Dir α} {type0 : ℤ} {f : String} {c : InterfaceConfig}
    (h : declares unmarshal isValid dir type0 f = some c) : (dir.lookup f).isSome := by
  unfold declares loadInterfaceConfig at h
  rcases hf : dir.lookup f with _ | content
  · rw [hf] at h
    cases h
  · rfl

/-- What a file declares is a matter of the file. -/
theorem declares_congr {dir dir' : Dir α} {type0 : ℤ} {f : String}
    (h : dir'.lookup f = dir.lookup f) :
    declares unmarshal isValid dir' type0 f = declares unmarshal isValid dir type0 f := by
  unfold declares loadInterfaceConfig
  rw [h]

theorem mem_readDir {dir : Dir α} {f : String} : f ∈ readDir dir ↔ (dir.lookup f).isSome := by
  rw [readDir, List.mem_mergeSort, AList.lookup_isSome]
  exact Iff.rfl

theorem readDir_sorted (dir : Dir α) : (readDir dir).Pairwise (· ≤ ·) := by
  have h : (readDir dir).Pairwise fun a b => decide (a ≤ b) = true := by
    refine List.pairwise_mergeSort ?_ ?_ dir.keys
    · intro a b c hab hbc
      simp only [decide_eq_true_eq] at hab hbc ⊢
      exact le_trans hab hbc
    · intro a b
      simp only [Bool.or_eq_true, decide_eq_true_eq]
      exact le_total a b
  exact h.imp fun hab => by simpa using hab

/-- What is loaded is what the files declare. -/
theorem mem_getInterfaceConfigs {dir : Dir α} {type0 : ℤ} {e : InterfaceConfigWithFileName} :
    e ∈ getInterfaceConfigs unmarshal isValid dir type0 ↔
      declares unmarshal isValid dir type0 e.fileName = some e.toInterfaceConfig := by
  simp only [getInterfaceConfigs, List.mem_filterMap, Option.map_eq_some_iff]
  constructor
  · rintro ⟨f, -, c, hc, rfl⟩
    exact hc
  · intro h
    exact ⟨e.fileName, mem_readDir.mpr (lookup_of_declares unmarshal isValid h),
      e.toInterfaceConfig, h, rfl⟩

/-- The configurations come in the order of their files. -/
theorem getInterfaceConfigs_sorted (dir : Dir α) (type0 : ℤ) :
    (getInterfaceConfigs unmarshal isValid dir type0).Pairwise
      fun e e' => e.fileName ≤ e'.fileName := by
  refine List.Pairwise.filterMap _ ?_ (readDir_sorted dir)
  intro f g hle e he e' he'
  obtain ⟨c, -, rfl⟩ := Option.map_eq_some_iff.mp he
  obtain ⟨c', -, rfl⟩ := Option.map_eq_some_iff.mp he'
  exact hle

/-- The table holds what files declare: an entry is what its own file declares (`entries`), and what
any file declares for a service is in the table, from that file or a later one (`covers`). -/
structure Agrees (dir : Dir α) (type0 : ℤ) (m : ServiceMap) : Prop where
  entries : ∀ service e, m.lookup service = some e →
    declares unmarshal isValid dir type0 e.fileName = some e.toInterfaceConfig
  covers : ∀ f c, declares unmarshal isValid dir type0 f = some c →
    ∃ e, m.lookup c.service = some e ∧ f ≤ e.fileName

/-- A service that no file declares is left as it was. -/
theorem lookup_loadAll_of_not_declared {dir : Dir α} {type0 : ℤ} {service : String}
    (h : ∀ f c, declares unmarshal isValid dir type0 f = some c → c.service ≠ service)
    (m : ServiceMap) :
    (loadAll unmarshal isValid dir type0 m).lookup service = m.lookup service := by
  rw [loadAll, ServiceMap.lookup_foldl_record]
  have hnone : (getInterfaceConfigs unmarshal isValid dir type0).reverse.find?
      (fun config => config.service = service) = none := by
    rw [List.find?_eq_none]
    intro e he
    rw [List.mem_reverse, mem_getInterfaceConfigs] at he
    simpa using h e.fileName e.toInterfaceConfig he
  rw [hnone, Option.none_or]

/-- A service that some file declares is what it would be without the table before. -/
theorem lookup_loadAll_of_declared {dir : Dir α} {type0 : ℤ} {f : String} {c : InterfaceConfig}
    (h : declares unmarshal isValid dir type0 f = some c) (m m' : ServiceMap) :
    (loadAll unmarshal isValid dir type0 m).lookup c.service =
      (loadAll unmarshal isValid dir type0 m').lookup c.service := by
  rw [loadAll, loadAll, ServiceMap.lookup_foldl_record, ServiceMap.lookup_foldl_record]
  have hsome : ((getInterfaceConfigs unmarshal isValid dir type0).reverse.find?
      fun config => config.service = c.service).isSome := by
    rw [List.find?_isSome]
    refine ⟨⟨c, f⟩, ?_, by simp⟩
    rw [List.mem_reverse, mem_getInterfaceConfigs]
    exact h
  obtain ⟨e, he⟩ := Option.isSome_iff_exists.mp hsome
  rw [he, Option.some_or, Option.some_or]

/-- **A table that is built from scratch** agrees with the directory. -/
theorem agrees_loadAll (dir : Dir α) (type0 : ℤ) :
    Agrees unmarshal isValid dir type0 (loadAll unmarshal isValid dir type0 .empty) := by
  constructor
  · intro service e he
    rw [loadAll, ServiceMap.lookup_foldl_record, ServiceMap.lookup_empty, Option.or_none] at he
    have hmem := List.mem_of_find?_eq_some he
    rw [List.mem_reverse, mem_getInterfaceConfigs] at hmem
    exact hmem
  · intro f c hc
    rw [loadAll, ServiceMap.lookup_foldl_record, ServiceMap.lookup_empty, Option.or_none]
    have hmem : (⟨c, f⟩ : InterfaceConfigWithFileName) ∈
        (getInterfaceConfigs unmarshal isValid dir type0).reverse := by
      rw [List.mem_reverse, mem_getInterfaceConfigs]
      exact hc
    have hsorted := List.pairwise_reverse.mpr
      (getInterfaceConfigs_sorted unmarshal isValid dir type0)
    rcases hfind : (getInterfaceConfigs unmarshal isValid dir type0).reverse.find?
        (fun config => config.service = c.service) with _ | e
    · have hne := List.find?_eq_none.mp hfind _ hmem
      simp at hne
    · refine ⟨e, hfind, ?_⟩
      -- the last file of the service comes first in the reversed order
      obtain ⟨-, before, after, heq, hbefore⟩ := List.find?_eq_some_iff_append.mp hfind
      rw [heq] at hmem hsorted
      rcases List.mem_append.mp hmem with hmem | hmem
      · have hne := hbefore _ hmem
        simp at hne
      · rcases List.mem_cons.mp hmem with rfl | hmem
        · exact le_refl _
        · exact List.rel_of_pairwise_cons (List.pairwise_append.mp hsorted).2.1 hmem

/-- There is one table that agrees with the directory. -/
theorem Agrees.lookup_eq {dir : Dir α} {type0 : ℤ} {m m' : ServiceMap}
    (h : Agrees unmarshal isValid dir type0 m) (h' : Agrees unmarshal isValid dir type0 m')
    (service : String) : m.lookup service = m'.lookup service := by
  rcases hm : m.lookup service with _ | e
  · rcases hm' : m'.lookup service with _ | e'
    · rfl
    · obtain ⟨e, he, -⟩ := h.covers _ _ (h'.entries service e' hm')
      rw [m'.service_eq service e' hm', hm] at he
      cases he
  · have hdeclared := h.entries service e hm
    obtain ⟨e', he', hle'⟩ := h'.covers _ _ hdeclared
    rw [m.service_eq service e hm] at he'
    have hdeclared' := h'.entries service e' he'
    obtain ⟨e'', he'', hle⟩ := h.covers _ _ hdeclared'
    rw [m'.service_eq service e' he', hm, Option.some.injEq] at he''
    subst he''
    -- each file comes no later than the other
    have hfile : e.fileName = e'.fileName := le_antisymm hle' hle
    rw [← hfile, hdeclared, Option.some.injEq] at hdeclared'
    rw [he']
    rcases e with ⟨c, f⟩
    rcases e' with ⟨c', f'⟩
    cases hfile
    cases hdeclared'
    rfl

end declarations

/-! ## What the watcher reports -/

/-- Whether the file was there before. -/
def thereBefore : FileOp → Bool
  | .create => false
  | .write | .remove => true

/-- Whether the file is there afterwards. -/
def thereAfter : FileOp → Bool
  | .create | .write => true
  | .remove => false

/-- Of one file, the events report how it came from being there or not before them, to being there
or not now. -/
def Reports (file : String) : Bool → List DirEvent → Bool → Prop
  | before, [], now => before = now
  | before, ev :: events, now =>
      if ev.name = file then
        before = thereBefore ev.op ∧ Reports file (thereAfter ev.op) events now
      else Reports file before events now

/-- Events of other files report nothing. -/
theorem Reports.append_other {file : String} {before now : Bool} {events : List DirEvent}
    (h : Reports file before events now) {ev : DirEvent} (hev : ev.name ≠ file) :
    Reports file before (events ++ [ev]) now := by
  induction events generalizing before with
  | nil =>
      rw [List.nil_append, Reports, if_neg hev]
      exact h
  | cons ev' events ih =>
      rw [List.cons_append]
      unfold Reports at h ⊢
      split_ifs at h ⊢
      · exact ⟨h.1, ih h.2⟩
      · exact ih h

/-- The next event of the file is reported last. -/
theorem Reports.append {ev : DirEvent} {before : Bool} {events : List DirEvent}
    (h : Reports ev.name before events (thereBefore ev.op)) :
    Reports ev.name before (events ++ [ev]) (thereAfter ev.op) := by
  induction events generalizing before with
  | nil =>
      rw [List.nil_append, Reports, if_pos rfl]
      exact ⟨h, rfl⟩
  | cons ev' events ih =>
      rw [List.cons_append]
      unfold Reports at h ⊢
      split_ifs at h ⊢
      · exact ⟨h.1, ih h.2⟩
      · exact ih h

/-- A file that came or went has an event. -/
theorem Reports.pending {file : String} {before now : Bool} {events : List DirEvent}
    (h : Reports file before events now) (hne : before ≠ now) : Pending events file := by
  induction events with
  | nil => exact absurd h hne
  | cons ev events ih =>
      unfold Reports at h
      split_ifs at h with hev
      · exact ⟨ev, List.mem_cons_self, hev⟩
      · obtain ⟨ev', hmem, hname⟩ := ih h
        exact ⟨ev', List.mem_cons_of_mem ev hmem, hname⟩

/-! ## A table that follows the directory -/

section watch

variable {α T ε : Type}

/-- The directory, the events that are still to be handled, oldest first, and what the handlers
keep. -/
structure Watch (α T : Type) where
  dir : Dir α
  events : List DirEvent
  table : T

/-- What happens: a file is created, written or removed, or the oldest event is handled. What else
the handler finds is part of the action. -/
inductive WatchAction (α ε : Type) where
  | create (file : String) (content : α)
  | write (file : String) (content : α)
  | remove (file : String)
  | handle (env : ε)

variable (handler : ε → Dir α → T → DirEvent → T)

/-- One step. Source: `ukey/manager.go` and `face/manager.go`, `Manager.dispatchFsEvents`. -/
def Watch.move (s : Watch α T) : WatchAction α ε → Option (Watch α T)
  | .create file content =>
      if (s.dir.lookup file).isNone then
        some { s with dir := s.dir.insert file content, events := s.events ++ [⟨file, .create⟩] }
      else none
  | .write file content =>
      if (s.dir.lookup file).isSome then
        some { s with dir := s.dir.insert file content, events := s.events ++ [⟨file, .write⟩] }
      else none
  | .remove file =>
      if (s.dir.lookup file).isSome then
        some { s with dir := s.dir.erase file, events := s.events ++ [⟨file, .remove⟩] }
      else none
  | .handle env =>
      match s.events with
      | [] => none
      | ev :: rest => some { s with events := rest, table := handler env s.dir s.table ev }

/-- One step, with nothing observed: the table is read from the state. -/
def Watch.step (s : Watch α T) (a : WatchAction α ε) : Option (Watch α T × Unit) :=
  (s.move handler a).map fun s => (s, ())

/-- What became of the directory when one file came, changed or went: an event of the file waits
behind the others. -/
structure Changed (s : Watch α T) (ev : DirEvent) (t : Watch α T) : Prop where
  events : t.events = s.events ++ [ev]
  table : t.table = s.table
  other : ∀ g, g ≠ ev.name → t.dir.lookup g = s.dir.lookup g
  before : (s.dir.lookup ev.name).isSome = thereBefore ev.op
  now : (t.dir.lookup ev.name).isSome = thereAfter ev.op

/-- **What one step does.** -/
theorem Watch.step_cases {s t : Watch α T} {a : WatchAction α ε} {u : Unit}
    (h : s.step handler a = some (t, u)) :
    (∃ ev, Changed s ev t) ∨
      ∃ env ev rest, a = .handle env ∧ s.events = ev :: rest ∧
        t = { s with events := rest, table := handler env s.dir s.table ev } := by
  obtain ⟨t', hmove, heq⟩ := Option.map_eq_some_iff.mp h
  cases heq
  cases a with
  | create file content =>
      simp only [Watch.move, Option.ite_none_right_eq_some, Option.some.injEq,
        Option.isNone_iff_eq_none] at hmove
      obtain ⟨hfile, rfl⟩ := hmove
      refine .inl ⟨⟨file, .create⟩, rfl, rfl, ?_, ?_, ?_⟩
      · intro g hg
        exact AList.lookup_insert_ne hg
      · rw [hfile]
        rfl
      · rw [AList.lookup_insert]
        rfl
  | write file content =>
      simp only [Watch.move, Option.ite_none_right_eq_some, Option.some.injEq] at hmove
      obtain ⟨hfile, rfl⟩ := hmove
      refine .inl ⟨⟨file, .write⟩, rfl, rfl, ?_, hfile, ?_⟩
      · intro g hg
        exact AList.lookup_insert_ne hg
      · rw [AList.lookup_insert]
        rfl
  | remove file =>
      simp only [Watch.move, Option.ite_none_right_eq_some, Option.some.injEq] at hmove
      obtain ⟨hfile, rfl⟩ := hmove
      refine .inl ⟨⟨file, .remove⟩, rfl, rfl, ?_, hfile, ?_⟩
      · intro g hg
        exact AList.lookup_erase_ne hg
      · rw [AList.lookup_erase]
        rfl
  | handle env =>
      rcases hev : s.events with _ | ⟨ev, rest⟩
      · rw [Watch.move, hev] at hmove
        cases hmove
      · rw [Watch.move, hev] at hmove
        cases hmove
        exact .inr ⟨env, ev, rest, rfl, rfl, rfl⟩

end watch

end LingmoAuthenticate.AuthCommon
