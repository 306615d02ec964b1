import LingmoAuthenticate.AuthCommon.Interfaces

/-!
# The services of the keys: `ukey/manager.go`

The table of the services is loaded when the manager starts. Afterwards each event of the interface
directory is handled by itself: a new file is recorded, a removed file has its record deleted, and a
file that was written is read and otherwise changes the choice of a default device only.

* `dispatch_cases`: what one event does to the table.
* `Undisturbed`: what must not meet an event for the table to follow the directory.
* `TableInv`: records are what their files declare, no later file is missed, and no file has two
  records, but for the events that are still to be handled.
* `services_follow`: whenever all events are handled, the table is the one that would be built from
  scratch.
-/

namespace LingmoAuthenticate.UKey

open Lib AuthCommon
open MultiFactor (Dir DirEvent FileOp Pending)

/-! ## The handlers -/

/-- The services and the one that is used where none is named. Source: `ukey/manager.go`, `Manager`;
`DefaultDevice` is a property. -/
structure Services where
  uKeyServiceMap : ServiceMap
  defaultDevice : String

/-- What a handler finds beside the directory: the orders of its loops over the table, and the
device that was saved as the default, where the file can be read. -/
structure Env where
  scan : GoMap.RangeOrder String InterfaceConfigWithFileName
  pick : GoMap.RangeOrder String InterfaceConfigWithFileName
  saved : Option String

namespace Services

/-- The first service of the table. Source: `ukey/manager.go`,
`Manager.selectDefaultDeviceFromMap`. -/
def selectDefaultDeviceFromMap (env : Env) (s : Services) : Services :=
  match env.pick.visit s.uKeyServiceMap.entries with
  | [] => s
  | ⟨service, _⟩ :: _ => { s with defaultDevice := service }

/-- Source: `ukey/manager.go`, `Manager.loadDefaultDeviceFromFile`; `none` says that no device was
saved that the table has. -/
def loadDefaultDeviceFromFile (env : Env) (s : Services) : Option Services :=
  env.saved.bind fun device =>
    if (env.scan.visit s.uKeyServiceMap.entries).any fun e => e.2.service = device then
      some { s with defaultDevice := device }
    else none

/-- Source: `ukey/manager.go`, `Manager.loadDefaultDevice`. -/
def loadDefaultDevice (env : Env) (s : Services) : Services :=
  match s.loadDefaultDeviceFromFile env with
  | some s => s
  | none => s.selectDefaultDeviceFromMap env

section handlers

variable {α : Type} (unmarshal : α → InterfaceConfig) (isValid : String → Bool)

/-- Source: `ukey/manager.go`, `Manager.loadServiceConfigAndUpdateDefaultDevice`. -/
def loadServiceConfigAndUpdateDefaultDevice (env : Env) (dir : Dir α) (s : Services)
    (filename : String) : Services :=
  match loadInterfaceConfig unmarshal isValid dir filename interfaceTypeUKey with
  | .error _ => s
  | .ok config =>
      let s := { s with uKeyServiceMap := s.uKeyServiceMap.record ⟨config, filename⟩ }
      if s.defaultDevice = "" then s.loadDefaultDevice env else s

/-- The loop assigns what was loaded to its own variable, so that the table keeps the record as it
was. Source: `ukey/manager.go`, `Manager.updateDeviceAndDefaultDevice`. -/
def updateDeviceAndDefaultDevice (env : Env) (dir : Dir α) (s : Services) (filename : String) :
    Services :=
  match loadInterfaceConfig unmarshal isValid dir filename interfaceTypeUKey with
  | .error _ => s
  | .ok _ =>
      let oldServiceName := (env.scan.visit s.uKeyServiceMap.entries).foldl
        (fun old e => if e.2.fileName = filename then e.2.service else old) ""
      if oldServiceName = s.defaultDevice then s.selectDefaultDeviceFromMap env else s

/-- The first record of the file is deleted. Source: `ukey/manager.go`,
`Manager.removeConfigAndUpdateDefaultDevice`. -/
def removeConfigAndUpdateDefaultDevice (env : Env) (s : Services) (filename : String) : Services :=
  match (env.scan.visit s.uKeyServiceMap.entries).find? fun e => e.2.fileName = filename with
  | none => s
  | some ⟨service, uKeyConfig⟩ =>
      let s := { s with uKeyServiceMap := s.uKeyServiceMap.delete service }
      if s.defaultDevice = uKeyConfig.service then
        { s with defaultDevice := "" }.selectDefaultDeviceFromMap env
      else s

/-- One event. Source: `ukey/manager.go`, `Manager.dispatchFsEvents`; the list of the devices that
answer is left out. -/
def dispatch (env : Env) (dir : Dir α) (s : Services) (ev : DirEvent) : Services :=
  match ev.op with
  | .create => loadServiceConfigAndUpdateDefaultDevice unmarshal isValid env dir s ev.name
  | .write => updateDeviceAndDefaultDevice unmarshal isValid env dir s ev.name
  | .remove => s.removeConfigAndUpdateDefaultDevice env ev.name

/-- Source: `ukey/manager.go`, `Manager.loadAllConfigs`. -/
def loadAllConfigs (dir : Dir α) (s : Services) : Services :=
  { s with uKeyServiceMap := loadAll unmarshal isValid dir interfaceTypeUKey s.uKeyServiceMap }

/-- Source: `ukey/manager.go`, `newManager` and `Manager.init`. -/
def init (env : Env) (dir : Dir α) : Services :=
  (loadAllConfigs unmarshal isValid dir ⟨.empty, ""⟩).loadDefaultDevice env

/-- Source: `ukey/interface.go`, `Manager.SetDefaultDevice`; whether the choice could be saved is
left out. -/
def setDefaultDevice (s : Services) (device : String) : Services × Option String :=
  if (s.uKeyServiceMap.lookup device).isSome then ({ s with defaultDevice := device }, none)
  else (s, some ("not found device " ++ device))

/-! ## The choice of a default device leaves the table alone -/

@[simp] theorem selectDefaultDeviceFromMap_map (env : Env) (s : Services) :
    (s.selectDefaultDeviceFromMap env).uKeyServiceMap = s.uKeyServiceMap := by
  unfold selectDefaultDeviceFromMap
  rcases env.pick.visit s.uKeyServiceMap.entries with _ | ⟨⟨service, config⟩, es⟩
  · rfl
  · rfl

@[simp] theorem loadDefaultDevice_map (env : Env) (s : Services) :
    (s.loadDefaultDevice env).uKeyServiceMap = s.uKeyServiceMap := by
  unfold loadDefaultDevice
  rcases hfile : s.loadDefaultDeviceFromFile env with _ | s'
  · exact selectDefaultDeviceFromMap_map env s
  · unfold loadDefaultDeviceFromFile at hfile
    obtain ⟨device, -, hdevice⟩ := Option.bind_eq_some_iff.mp hfile
    simp only [Option.ite_none_right_eq_some, Option.some.injEq] at hdevice
    obtain ⟨-, rfl⟩ := hdevice
    rfl

/-- **What one event does to the table.** -/
theorem dispatch_cases (env : Env) (dir : Dir α) (s : Services) (ev : DirEvent) :
    (∃ c, ev.op = .create ∧
        declares unmarshal isValid dir interfaceTypeUKey ev.name = some c ∧
        (s.dispatch unmarshal isValid env dir ev).uKeyServiceMap =
          s.uKeyServiceMap.record ⟨c, ev.name⟩) ∨
      (∃ service e, ev.op = .remove ∧ s.uKeyServiceMap.lookup service = some e ∧
        e.fileName = ev.name ∧
        (s.dispatch unmarshal isValid env dir ev).uKeyServiceMap =
          s.uKeyServiceMap.delete service) ∨
      ((s.dispatch unmarshal isValid env dir ev).uKeyServiceMap = s.uKeyServiceMap ∧
        match ev.op with
        | .create => declares unmarshal isValid dir interfaceTypeUKey ev.name = none
        | .write => True
        | .remove => ¬ s.uKeyServiceMap.Recorded ev.name) := by
  unfold dispatch
  rcases hop : ev.op with _ | _ | _
  · dsimp only
    unfold loadServiceConfigAndUpdateDefaultDevice declares
    rcases loadInterfaceConfig unmarshal isValid dir ev.name interfaceTypeUKey with err | config
    · exact .inr (.inr ⟨rfl, rfl⟩)
    · refine .inl ⟨config, rfl, rfl, ?_⟩
      dsimp only
      split_ifs
      · exact loadDefaultDevice_map env _
      · rfl
  · refine .inr (.inr ⟨?_, trivial⟩)
    dsimp only
    unfold updateDeviceAndDefaultDevice
    rcases loadInterfaceConfig unmarshal isValid dir ev.name interfaceTypeUKey with err | config
    · rfl
    · dsimp only
      split_ifs
      · exact selectDefaultDeviceFromMap_map env s
      · rfl
  · dsimp only
    unfold removeConfigAndUpdateDefaultDevice
    have hranges := env.scan.ranges s.uKeyServiceMap.entries
    rcases hfind : (env.scan.visit s.uKeyServiceMap.entries).find?
        (fun e => e.2.fileName = ev.name) with _ | ⟨service, e⟩
    · rw [hfind]
      refine .inr (.inr ⟨rfl, ?_⟩)
      rintro ⟨service, e, he, hfile⟩
      have hne := List.find?_eq_none.mp hfind ⟨service, e⟩ (hranges.mem_iff.mpr he)
      simp [hfile] at hne
    · rw [hfind]
      refine .inr (.inl ⟨service, e, rfl, ?_, ?_, ?_⟩)
      · exact hranges.mem_iff.mp (List.mem_of_find?_eq_some hfind)
      · simpa using List.find?_some hfind
      · dsimp only
        split_ifs
        · exact selectDefaultDeviceFromMap_map env _
        · rfl

end handlers

end Services

/-! ## The table follows the directory -/

section follow

variable {α : Type} (unmarshal : α → InterfaceConfig) (isValid : String → Bool)

/-- The directory, the events and the services. -/
abbrev UKeyWatch (α : Type) := Watch α Services

/-- One step. -/
abbrev UKeyWatch.step (s : UKeyWatch α) (a : WatchAction α Env) : Option (UKeyWatch α × Unit) :=
  Watch.step (fun env dir services ev => Services.dispatch unmarshal isValid env dir services ev)
    s a

/-- The watcher is started on a directory that has been loaded.
Source: `ukey/manager.go`, `Manager.init`. -/
def UKeyWatch.init (env : Env) (dir : Dir α) : UKeyWatch α :=
  ⟨dir, [], Services.init unmarshal isValid env dir⟩

/-- The configuration that a file declares for the keys. -/
abbrev declaresUKey (dir : Dir α) (f : String) : Option InterfaceConfig :=
  declares unmarshal isValid dir interfaceTypeUKey f

/-- What does not go wrong when an event is handled. A file that is created does not take the
service of a later file. A file that is removed does not take the record of a service with it that
another file declares. And a file whose last event says that it was written has a record of what it
declares now, and of nothing else, unless a later file declares the same service. -/
def Undisturbed (s : UKeyWatch α) : WatchAction α Env → Prop
  | .handle _ => ∀ ev rest, s.events = ev :: rest →
      match ev.op with
      | .create => ∀ c g c', declaresUKey unmarshal isValid s.dir ev.name = some c →
          declaresUKey unmarshal isValid s.dir g = some c' → c'.service = c.service →
            g ≤ ev.name ∨ Pending rest g
      | .remove => ∀ service e g c, s.table.uKeyServiceMap.lookup service = some e →
          e.fileName = ev.name → declaresUKey unmarshal isValid s.dir g = some c →
            c.service = service → Pending rest g
      | .write => Pending rest ev.name ∨
          ((∀ service e, s.table.uKeyServiceMap.lookup service = some e → e.fileName = ev.name →
              declaresUKey unmarshal isValid s.dir ev.name = some e.toInterfaceConfig) ∧
            ∀ c, declaresUKey unmarshal isValid s.dir ev.name = some c →
              ∃ e, s.table.uKeyServiceMap.lookup c.service = some e ∧ ev.name ≤ e.fileName)
  | _ => True

/-- Records are what their files declare, no file is missed for an earlier one, and no file has two
records, but for the events that are still to be handled. -/
structure TableInv (s : UKeyWatch α) : Prop where
  entries : ∀ service e, s.table.uKeyServiceMap.lookup service = some e →
    declaresUKey unmarshal isValid s.dir e.fileName = some e.toInterfaceConfig ∨
      Pending s.events e.fileName
  covers : ∀ f c, declaresUKey unmarshal isValid s.dir f = some c →
    (∃ e, s.table.uKeyServiceMap.lookup c.service = some e ∧ f ≤ e.fileName) ∨ Pending s.events f
  single : ∀ service service' e e', s.table.uKeyServiceMap.lookup service = some e →
    s.table.uKeyServiceMap.lookup service' = some e' → e.fileName = e'.fileName →
      service = service'
  reports : ∀ f, ∃ before, Reports f before s.events (s.dir.lookup f).isSome ∧
    (s.table.uKeyServiceMap.Recorded f → before = true)

/-- At first the table agrees with the directory. -/
theorem tableInv_init (env : Env) (dir : Dir α) :
    TableInv unmarshal isValid (.init unmarshal isValid env dir) := by
  have hmap : (UKeyWatch.init unmarshal isValid env dir).table.uKeyServiceMap =
      loadAll unmarshal isValid dir interfaceTypeUKey .empty :=
    Services.loadDefaultDevice_map env _
  have h := agrees_loadAll unmarshal isValid dir interfaceTypeUKey
  constructor
  · intro service e he
    rw [hmap] at he
    exact .inl (h.entries service e he)
  · intro f c hc
    rw [hmap]
    exact .inl (h.covers f c hc)
  · intro service service' e e' he he' hfile
    rw [hmap] at he he'
    have hdeclared := h.entries service e he
    rw [hfile, h.entries service' e' he', Option.some.injEq] at hdeclared
    rw [← ServiceMap.service_eq _ service e he, ← ServiceMap.service_eq _ service' e' he',
      hdeclared]
  · intro f
    refine ⟨(dir.lookup f).isSome, rfl, ?_⟩
    rintro ⟨service, e, he, rfl⟩
    rw [hmap] at he
    exact lookup_of_declares unmarshal isValid (h.entries service e he)

/-- **A file comes, changes or goes**: an event of it is then to be handled. -/
theorem TableInv.changed {s t : UKeyWatch α} (h : TableInv unmarshal isValid s) {ev : DirEvent}
    (hc : Changed s ev t) : TableInv unmarshal isValid t := by
  have hpending : ∀ {f}, Pending s.events f → Pending t.events f := by
    rintro f ⟨ev', hmem, hname⟩
    rw [hc.events]
    exact ⟨ev', List.mem_append_left _ hmem, hname⟩
  have hself : Pending t.events ev.name := by
    rw [hc.events]
    exact ⟨ev, by simp, rfl⟩
  constructor
  · intro service e he
    rw [hc.table] at he
    by_cases hfile : e.fileName = ev.name
    · rw [hfile]
      exact .inr hself
    · rw [declaresUKey, declares_congr unmarshal isValid (hc.other e.fileName hfile)]
      exact (h.entries service e he).imp id hpending
  · intro f c hdeclared
    rw [hc.table]
    by_cases hfile : f = ev.name
    · rw [hfile]
      exact .inr hself
    · rw [declaresUKey, declares_congr unmarshal isValid (hc.other f hfile)] at hdeclared
      exact (h.covers f c hdeclared).imp id hpending
  · rw [hc.table]
    exact h.single
  · intro f
    obtain ⟨before, hreports, hrecorded⟩ := h.reports f
    rw [hc.table, hc.events]
    refine ⟨before, ?_, hrecorded⟩
    by_cases hfile : f = ev.name
    · subst hfile
      rw [hc.before] at hreports
      rw [hc.now]
      exact hreports.append
    · rw [hc.other f hfile]
      exact hreports.append_other (Ne.symm hfile)

/-- What the invariant knows of the file of the event that is handled next. -/
theorem TableInv.head {s : UKeyWatch α} (h : TableInv unmarshal isValid s) {ev : DirEvent}
    {rest : List DirEvent} (hev : s.events = ev :: rest) :
    Reports ev.name (thereAfter ev.op) rest (s.dir.lookup ev.name).isSome ∧
      (s.table.uKeyServiceMap.Recorded ev.name → thereBefore ev.op = true) := by
  obtain ⟨before, hreports, hrecorded⟩ := h.reports ev.name
  rw [hev, Reports, if_pos rfl] at hreports
  obtain ⟨hbefore, hreports⟩ := hreports
  exact ⟨hreports, hbefore ▸ hrecorded⟩

/-- What the invariant knows of the other files. -/
theorem TableInv.tail {s : UKeyWatch α} (h : TableInv unmarshal isValid s) {ev : DirEvent}
    {rest : List DirEvent} (hev : s.events = ev :: rest) {f : String} (hf : f ≠ ev.name) :
    ∃ before, Reports f before rest (s.dir.lookup f).isSome ∧
      (s.table.uKeyServiceMap.Recorded f → before = true) := by
  obtain ⟨before, hreports, hrecorded⟩ := h.reports f
  rw [hev, Reports, if_neg (Ne.symm hf)] at hreports
  exact ⟨before, hreports, hrecorded⟩

/-- Events of other files than the next one are still to be handled. -/
theorem pending_rest {ev : DirEvent} {rest : List DirEvent} {f : String}
    (h : Pending (ev :: rest) f) (hf : f ≠ ev.name) : Pending rest f := by
  obtain ⟨ev', hmem, hname⟩ := h
  rcases List.mem_cons.mp hmem with rfl | hmem
  · exact absurd hname.symm hf
  · exact ⟨ev', hmem, hname⟩

/-- A record of another file than that of the next event. -/
theorem TableInv.entries_rest {s : UKeyWatch α} (h : TableInv unmarshal isValid s) {ev : DirEvent}
    {rest : List DirEvent} (hev : s.events = ev :: rest) {service : String}
    {e : InterfaceConfigWithFileName} (he : s.table.uKeyServiceMap.lookup service = some e)
    (hf : e.fileName ≠ ev.name) :
    declaresUKey unmarshal isValid s.dir e.fileName = some e.toInterfaceConfig ∨
      Pending rest e.fileName := by
  rcases h.entries service e he with hc | hp
  · exact .inl hc
  · rw [hev] at hp
    exact .inr (pending_rest hp hf)

/-- A declaration of another file than that of the next event. -/
theorem TableInv.covers_rest {s : UKeyWatch α} (h : TableInv unmarshal isValid s) {ev : DirEvent}
    {rest : List DirEvent} (hev : s.events = ev :: rest) {f : String} {c : InterfaceConfig}
    (hc : declaresUKey unmarshal isValid s.dir f = some c) (hf : f ≠ ev.name) :
    (∃ e, s.table.uKeyServiceMap.lookup c.service = some e ∧ f ≤ e.fileName) ∨ Pending rest f := by
  rcases h.covers f c hc with he | hp
  · exact .inl he
  · rw [hev] at hp
    exact .inr (pending_rest hp hf)

/-- **A new file is recorded**, and it takes the service of no later one. -/
theorem TableInv.recorded {s t : UKeyWatch α} (h : TableInv unmarshal isValid s) {ev : DirEvent}
    {rest : List DirEvent} (hev : s.events = ev :: rest) (hop : ev.op = .create)
    {c : InterfaceConfig} (hc : declaresUKey unmarshal isValid s.dir ev.name = some c)
    (hlater : ∀ g c', declaresUKey unmarshal isValid s.dir g = some c' → c'.service = c.service →
      g ≤ ev.name ∨ Pending rest g)
    (hdir : t.dir = s.dir) (hevents : t.events = rest)
    (hmap : t.table.uKeyServiceMap = s.table.uKeyServiceMap.record ⟨c, ev.name⟩) :
    TableInv unmarshal isValid t := by
  obtain ⟨hreports, hrecorded⟩ := h.head unmarshal isValid hev
  rw [hop] at hreports hrecorded
  -- the file was not there before, so that no record is its own
  have hfresh : ∀ {service e}, s.table.uKeyServiceMap.lookup service = some e →
      e.fileName ≠ ev.name := by
    intro service e he hfile
    exact Bool.noConfusion (hrecorded ⟨service, e, he, hfile⟩)
  have hlookup : ∀ service, t.table.uKeyServiceMap.lookup service =
      if service = c.service then some ⟨c, ev.name⟩ else s.table.uKeyServiceMap.lookup service := by
    intro service
    rw [hmap, ServiceMap.lookup_record]
  constructor
  · intro service e he
    rw [hlookup] at he
    rw [hdir, hevents]
    split_ifs at he with hs
    · cases he
      exact .inl hc
    · exact h.entries_rest unmarshal isValid hev he (hfresh he)
  · intro g c' hc'
    rw [hdir] at hc'
    rw [hevents, hlookup]
    by_cases hs : c'.service = c.service
    · rw [if_pos hs]
      rcases hlater g c' hc' hs with hle | hp
      · exact .inl ⟨_, rfl, hle⟩
      · exact .inr hp
    · rw [if_neg hs]
      refine h.covers_rest unmarshal isValid hev hc' ?_
      rintro rfl
      rw [hc, Option.some.injEq] at hc'
      exact hs (hc' ▸ rfl)
  · intro service service' e e' he he' hfile
    rw [hlookup] at he he'
    split_ifs at he he' with hs hs' hs'
    · rw [hs, hs']
    · cases he
      exact absurd hfile.symm (hfresh he')
    · cases he'
      exact absurd hfile (hfresh he)
    · exact h.single service service' e e' he he' hfile
  · intro f
    rw [hdir, hevents]
    by_cases hf : f = ev.name
    · subst hf
      exact ⟨true, hreports, fun _ => rfl⟩
    · obtain ⟨before, hbefore, hrec⟩ := h.tail unmarshal isValid hev hf
      refine ⟨before, hbefore, ?_⟩
      rintro ⟨service, e, he, hfile⟩
      rw [hlookup] at he
      split_ifs at he
      · cases he
        exact absurd hfile.symm hf
      · exact hrec ⟨service, e, he, hfile⟩

/-- **A record is deleted** with its file, and no other file declares its service. -/
theorem TableInv.deleted {s t : UKeyWatch α} (h : TableInv unmarshal isValid s) {ev : DirEvent}
    {rest : List DirEvent} (hev : s.events = ev :: rest) (hop : ev.op = .remove) {service : String}
    {e : InterfaceConfigWithFileName} (he : s.table.uKeyServiceMap.lookup service = some e)
    (hfile : e.fileName = ev.name)
    (hother : ∀ g c, declaresUKey unmarshal isValid s.dir g = some c → c.service = service →
      Pending rest g)
    (hdir : t.dir = s.dir) (hevents : t.events = rest)
    (hmap : t.table.uKeyServiceMap = s.table.uKeyServiceMap.delete service) :
    TableInv unmarshal isValid t := by
  obtain ⟨hreports, -⟩ := h.head unmarshal isValid hev
  rw [hop] at hreports
  have hlookup : ∀ {service' e'}, t.table.uKeyServiceMap.lookup service' = some e' →
      service' ≠ service ∧ s.table.uKeyServiceMap.lookup service' = some e' := by
    intro service' e' he'
    rw [hmap, ServiceMap.lookup_delete] at he'
    split_ifs at he' with hs
    exact ⟨hs, he'⟩
  -- the record was the only one of the file
  have hgone : ∀ {service' e'}, t.table.uKeyServiceMap.lookup service' = some e' →
      e'.fileName ≠ ev.name := by
    intro service' e' he' hfile'
    obtain ⟨hs, hold⟩ := hlookup he'
    exact hs (h.single service' service e' e hold he (hfile'.trans hfile.symm))
  constructor
  · intro service' e' he'
    rw [hdir, hevents]
    exact h.entries_rest unmarshal isValid hev (hlookup he').2 (hgone he')
  · intro g c hc
    rw [hdir] at hc
    rw [hevents, hmap, ServiceMap.lookup_delete]
    by_cases hs : c.service = service
    · exact .inr (hother g c hc hs)
    · rw [if_neg hs]
      by_cases hg : g = ev.name
      · subst hg
        -- the file is there again, which an event is still to say
        rw [lookup_of_declares unmarshal isValid hc] at hreports
        exact .inr (hreports.pending Bool.noConfusion)
      · exact h.covers_rest unmarshal isValid hev hc hg
  · intro service₁ service₂ e₁ e₂ he₁ he₂
    exact h.single service₁ service₂ e₁ e₂ (hlookup he₁).2 (hlookup he₂).2
  · intro f
    rw [hdir, hevents]
    by_cases hf : f = ev.name
    · subst hf
      refine ⟨false, hreports, ?_⟩
      rintro ⟨service', e', he', hfile'⟩
      exact absurd hfile' (hgone he')
    · obtain ⟨before, hbefore, hrec⟩ := h.tail unmarshal isValid hev hf
      refine ⟨before, hbefore, ?_⟩
      rintro ⟨service', e', he', hfile'⟩
      exact hrec ⟨service', e', (hlookup he').2, hfile'⟩

/-- **The table is kept as it is**, and what it holds of the file, and what the file declares, is
right or waits for another event. -/
theorem TableInv.kept {s t : UKeyWatch α} (h : TableInv unmarshal isValid s) {ev : DirEvent}
    {rest : List DirEvent} (hev : s.events = ev :: rest)
    (hentries : ∀ service e, s.table.uKeyServiceMap.lookup service = some e →
      e.fileName = ev.name →
        (declaresUKey unmarshal isValid s.dir ev.name = some e.toInterfaceConfig ∨
          Pending rest ev.name) ∧ thereAfter ev.op = true)
    (hcovers : ∀ c, declaresUKey unmarshal isValid s.dir ev.name = some c →
      (∃ e, s.table.uKeyServiceMap.lookup c.service = some e ∧ ev.name ≤ e.fileName) ∨
        Pending rest ev.name)
    (hdir : t.dir = s.dir) (hevents : t.events = rest)
    (hmap : t.table.uKeyServiceMap = s.table.uKeyServiceMap) : TableInv unmarshal isValid t := by
  obtain ⟨hreports, -⟩ := h.head unmarshal isValid hev
  constructor
  · intro service e he
    rw [hmap] at he
    rw [hdir, hevents]
    by_cases hfile : e.fileName = ev.name
    · rw [hfile]
      exact (hentries service e he hfile).1
    · exact h.entries_rest unmarshal isValid hev he hfile
  · intro g c hc
    rw [hdir] at hc
    rw [hevents, hmap]
    by_cases hg : g = ev.name
    · subst hg
      exact hcovers c hc
    · exact h.covers_rest unmarshal isValid hev hc hg
  · rw [hmap]
    exact h.single
  · intro f
    rw [hdir, hevents, hmap]
    by_cases hf : f = ev.name
    · subst hf
      refine ⟨thereAfter ev.op, hreports, ?_⟩
      rintro ⟨service, e, he, hfile⟩
      exact (hentries service e he hfile).2
    · exact h.tail unmarshal isValid hev hf

/-- **An event is handled**, and nothing goes wrong. -/
theorem TableInv.handled {s : UKeyWatch α} (h : TableInv unmarshal isValid s) {env : Env}
    {ev : DirEvent} {rest : List DirEvent} (hev : s.events = ev :: rest)
    (hu : Undisturbed unmarshal isValid s (.handle env)) :
    TableInv unmarshal isValid { s with
      events := rest
      table := Services.dispatch unmarshal isValid env s.dir s.table ev } := by
  have hu := hu ev rest hev
  rcases Services.dispatch_cases unmarshal isValid env s.dir s.table ev with
    ⟨c, hop, hc, hmap⟩ | ⟨service, e, hop, he, hfile, hmap⟩ | ⟨hmap, hcases⟩
  · rw [hop] at hu
    exact h.recorded unmarshal isValid hev hop hc (fun g c' => hu c g c' hc) rfl rfl hmap
  · rw [hop] at hu
    exact h.deleted unmarshal isValid hev hop he hfile
      (fun g c hc hs => hu service e g c he hfile hc hs) rfl rfl hmap
  · obtain ⟨hreports, hrecorded⟩ := h.head unmarshal isValid hev
    rcases hop : ev.op with _ | _ | _
    · rw [hop] at hcases hrecorded
      refine h.kept unmarshal isValid hev ?_ ?_ rfl rfl hmap
      · intro service e he hfile
        exact Bool.noConfusion (hrecorded ⟨service, e, he, hfile⟩)
      · intro c hc
        rw [declaresUKey, hcases] at hc
        cases hc
    · rw [hop] at hu
      refine h.kept unmarshal isValid hev ?_ ?_ rfl rfl hmap
      · intro service e he hfile
        rw [hop]
        refine ⟨?_, rfl⟩
        rcases hu with hp | ⟨hentries, -⟩
        · exact .inr hp
        · exact .inl (hentries service e he hfile)
      · intro c hc
        rcases hu with hp | ⟨-, hcovers⟩
        · exact .inr hp
        · exact .inl (hcovers c hc)
    · rw [hop] at hcases hreports
      refine h.kept unmarshal isValid hev ?_ ?_ rfl rfl hmap
      · intro service e he hfile
        exact absurd ⟨service, e, he, hfile⟩ hcases
      · intro c hc
        rw [lookup_of_declares unmarshal isValid hc] at hreports
        exact .inr (hreports.pending Bool.noConfusion)

/-- **Each step** in which nothing goes wrong keeps the invariant. -/
theorem TableInv.step {s t : UKeyWatch α} (h : TableInv unmarshal isValid s)
    {a : WatchAction α Env} {u : Unit} (hu : Undisturbed unmarshal isValid s a)
    (hs : s.step unmarshal isValid a = some (t, u)) : TableInv unmarshal isValid t := by
  rcases Watch.step_cases _ hs with ⟨ev, hc⟩ | ⟨env, ev, rest, rfl, hev, rfl⟩
  · exact h.changed unmarshal isValid hc
  · exact h.handled unmarshal isValid hev hu

/-- **The services follow the directory.** In every run in which nothing goes wrong, whenever all
events are handled, the table is the one that is built from scratch. -/
theorem services_follow {env₀ : Env} {dir₀ : Dir α} {acts : List (WatchAction α Env)}
    {s : UKeyWatch α} {us : List Unit}
    (hrun : run (UKeyWatch.step unmarshal isValid) (.init unmarshal isValid env₀ dir₀) acts =
      some (s, us))
    (hu : Along (UKeyWatch.step unmarshal isValid) (Undisturbed unmarshal isValid)
      (.init unmarshal isValid env₀ dir₀) acts) (hhandled : s.events = []) (service : String) :
    s.table.uKeyServiceMap.lookup service =
      (Services.loadAllConfigs unmarshal isValid s.dir ⟨.empty, ""⟩).uKeyServiceMap.lookup
        service := by
  have hinv : TableInv unmarshal isValid s := run_invariant (I := TableInv unmarshal isValid)
    (fun _ _ _ _ h hu hs => h.step unmarshal isValid hu hs)
    (tableInv_init unmarshal isValid env₀ dir₀) hu hrun
  have hnone : ∀ f, ¬ Pending s.events f := by
    rintro f ⟨ev, hmem, -⟩
    rw [hhandled] at hmem
    cases hmem
  have hagrees : Agrees unmarshal isValid s.dir interfaceTypeUKey s.table.uKeyServiceMap := by
    constructor
    · intro service e he
      exact (hinv.entries service e he).resolve_right (hnone e.fileName)
    · intro f c hc
      exact (hinv.covers f c hc).resolve_right (hnone f)
  exact hagrees.lookup_eq unmarshal isValid
    (agrees_loadAll unmarshal isValid s.dir interfaceTypeUKey) service

end follow

end LingmoAuthenticate.UKey
