import LingmoAuthenticate.Lib.Clock
import LingmoAuthenticate.Lib.Machine
import LingmoAuthenticate.MultiFactor.Config

/-!
# The configuration directory: `multifactor/multifactor.go`

The files of the directory are loaded once, and then followed by the events of a watcher, which are
handled one by one, each against what the directory holds by then. Of each application type the map
remembers the entry of highest priority only.

* `candidate dir f`: the entry that the file `f` stands for.
* `Recorded entry`, `Covers`: what is known of the entries of a map after files have been loaded
  into it. `exact_loadConfigs` says what a map that is built from scratch holds.
* `DirInv`: an entry is that of its file, unless an event of the file is still to be handled; and no
  file of higher priority is missed, unless its event is.
* `configs_follow`: where no recorded file is edited or removed, the map is the one that would be
  built from scratch, whenever all events are handled.
-/

namespace LingmoAuthenticate.MultiFactor

open Lib

/-! ## File names -/

/-- The application type with a name. Source: `multifactor/config.go`, the `appType…` constants. -/
def AppType.ofName (name : String) : AppType :=
  if name = "login" then .login
  else if name = "lock" then .lock
  else if name = "authorization" then .authorization
  else if name = "other" then .other
  else if name = "all" then .all
  else if name = "*" then .star
  else .unknown name

/-- The value of the digits, most significant first. -/
def digitsValue (digits : List Char) : ℤ :=
  digits.foldl (fun n c => 10 * n + (c.toNat - '0'.toNat : ℕ)) 0

/-- `strconv.Atoi`: an optional sign, decimal digits, and a value of 64 bits. -/
def atoi (s : List Char) : Option ℤ :=
  let digits := if s.head? = some '-' ∨ s.head? = some '+' then s.tail else s
  let value := if s.head? = some '-' then -digitsValue digits else digitsValue digits
  if digits ≠ [] ∧ digits.all Char.isDigit ∧ FitsInt64 value then some value else none

/-- What the name of a file says: the priority, and the type of application that it is for.
Source: `multifactor/multifactor.go`, `mfaFileInfo`. -/
structure MfaFileInfo where
  priority : ℤ
  appType : AppType
  deriving DecidableEq, Repr

/-- Three parts, of which the second is an application type and the third begins with the priority.
Source: `multifactor/multifactor.go`, `MFAConfig.resolveFilename`. -/
def resolveFilename (filename : String) : Option MfaFileInfo :=
  match filename.toList.splitOn '-' with
  | [_, appType, rest] =>
      let appType := AppType.ofName (String.ofList appType)
      if isSupportedAppType appType then
        match rest.splitOn '.' with
        | [priority, _] => (atoi priority).map fun priority => ⟨priority, appType⟩
        | _ => none
      else none
  | _ => none

example : resolveFilename "mfa-login-01.json" = some ⟨1, .login⟩ := by decide
example : resolveFilename "mfa-login-x1.json" = none := by decide

/-! ## The map and the directory -/

/-- An entry of the map. One field is not part of the program: `file` is the name of the file that
it was loaded from. Source: `multifactor/multifactor.go`, `configWithPriority`. -/
structure ConfigWithPriority where
  config : Config
  priority : ℤ
  file : String
  deriving DecidableEq, Repr

/-- The entries by application type. Source: `multifactor/multifactor.go`, `MFAConfig.configs`. -/
abbrev Configs := GoMap AppType ConfigWithPriority

section directory

variable {α : Type} (toConfigObject : α → Option Config)

/-- The files of a directory, with their contents. -/
abbrev Dir (α : Type) := GoMap String α

/-- The entry that a file with this content stands for, and its application type: the content can
be read and is valid, and it is for the application type of the file name.
Source: `multifactor/multifactor.go`, the checks of `MFAConfig.loadConfigFile`. -/
def entryOf (file : String) (content : α) : Option (AppType × ConfigWithPriority) :=
  (toConfigObject content).bind fun c =>
    (resolveFilename file).bind fun fileInfo =>
      if c.isValidConfig then
        if fileInfo.appType ≠ c.applicationType ∧
            ¬ (fileInfo.appType = .all ∧ c.applicationType = .star) then none
        else some (fileInfo.appType, ⟨c, fileInfo.priority, file⟩)
      else none

/-- An entry is remembered where there is none, or one of lower priority.
Source: `multifactor/multifactor.go`, the end of `MFAConfig.loadConfigFile`. -/
def record (configs : Configs) (appType : AppType) (entry : ConfigWithPriority) : Configs :=
  match configs.lookup appType with
  | some val => if val.priority < entry.priority then configs.insert appType entry else configs
  | none => configs.insert appType entry

/-- A file whose content has been read is loaded.
Source: `multifactor/multifactor.go`, `MFAConfig.loadConfigFile`. -/
def loadContent (configs : Configs) (file : String) (content : α) : Configs :=
  match entryOf toConfigObject file content with
  | some e => record configs e.1 e.2
  | none => configs

/-- A file that cannot be read is passed over.
Source: `multifactor/multifactor.go`, `MFAConfig.loadConfigFile`. -/
def loadConfigFile (dir : Dir α) (configs : Configs) (file : String) : Configs :=
  match dir.lookup file with
  | some content => loadContent toConfigObject configs file content
  | none => configs

/-- Source: `multifactor/multifactor.go`, `MFAConfig.removeConfig`. -/
def removeConfig (configs : Configs) (fileName : String) : Configs :=
  configs.erase (.ofName fileName)

/-- The files are loaded into an empty map, in the order in which they are listed.
Source: `multifactor/multifactor.go`, `MFAConfig.loadConfigs`. -/
def loadConfigs (order : GoMap.RangeOrder String α) (dir : Dir α) : Configs :=
  ((order.visit dir).map Sigma.fst).foldl (loadConfigFile toConfigObject dir) ∅

/-- What an event of the watcher says of a file. -/
inductive FileOp where
  | create
  | write
  | remove
  deriving DecidableEq, Repr

/-- An event of the watcher: the file that it is about, by its name, and what has happened to it. -/
structure DirEvent where
  name : String
  op : FileOp
  deriving DecidableEq, Repr

/-- The directory, the events that are still to be handled, oldest first, and the map.
Source: `multifactor/multifactor.go`, `MFAConfig`. -/
structure DirState (α : Type) where
  dir : Dir α
  events : List DirEvent
  configs : Configs

/-- What happens: a file is created, written or removed, which the watcher notes, or the oldest
event that was noted is handled, with what the file holds by then. -/
inductive DirAction (α : Type) where
  | create (file : String) (content : α)
  | write (file : String) (content : α)
  | remove (file : String)
  | handle

/-- One event. Source: `multifactor/multifactor.go`, `MFAConfig.dirEventHandler`. -/
def handleEvent (dir : Dir α) (configs : Configs) (ev : DirEvent) : Configs :=
  match ev.op with
  | .create | .write => loadConfigFile toConfigObject dir configs ev.name
  | .remove => removeConfig configs ev.name

/-- One step. -/
def DirState.move (s : DirState α) : DirAction α → Option (DirState α)
  | .create file content =>
      if (s.dir.lookup file).isNone then
        some { s with dir := s.dir.insert file content, events := s.events ++ [⟨file, .create⟩] }
      else none
  | .write file content =>
      if (s.dir.lookup file).isSome then
        some { s with dir := s.dir.insert file content, events := s.events ++ [⟨file, .write⟩] }
      else none
  | .remove file =>
      if (s.dir.lookup file).isSome then
        some { s with dir := s.dir.erase file, events := s.events ++ [⟨file, .remove⟩] }
      else none
  | .handle =>
      match s.events with
      | [] => none
      | ev :: rest => some { s with
          events := rest
          configs := handleEvent toConfigObject s.dir s.configs ev }

/-- One step, with nothing observed: the map is read from the state. -/
def DirState.step (s : DirState α) (a : DirAction α) : Option (DirState α × Unit) :=
  (s.move toConfigObject a).map fun s => (s, ())

/-- The watcher is started on a directory that has been loaded.
Source: `multifactor/multifactor.go`, `MFAConfig.init`. -/
def DirState.init (order : GoMap.RangeOrder String α) (dir : Dir α) : DirState α :=
  ⟨dir, [], loadConfigs toConfigObject order dir⟩

/-! ## Entries of highest priority -/

/-- The entry that a file of the directory stands for. -/
def candidate (dir : Dir α) (file : String) : Option (AppType × ConfigWithPriority) :=
  (dir.lookup file).bind (entryOf toConfigObject file)

/-- The files of one application type have distinct priorities. -/
def DistinctPriorities (dir : Dir α) : Prop :=
  ∀ f g a e e', candidate toConfigObject dir f = some (a, e) →
    candidate toConfigObject dir g = some (a, e') → e.priority = e'.priority → f = g

/-- The map has an entry of at least this priority. -/
def Covers (configs : Configs) (a : AppType) (entry : ConfigWithPriority) : Prop :=
  ∃ val, configs.lookup a = some val ∧ entry.priority ≤ val.priority

/-- The entry names the file that it was loaded from. -/
theorem entryOf_file {file : String} {content : α} {a : AppType} {e : ConfigWithPriority}
    (h : entryOf toConfigObject file content = some (a, e)) : e.file = file := by
  unfold entryOf at h
  simp only [Option.bind_eq_some_iff, Option.ite_none_right_eq_some, Option.ite_none_left_eq_some,
    Option.some.injEq, Prod.mk.injEq] at h
  obtain ⟨c, -, fileInfo, -, -, -, -, rfl⟩ := h
  rfl

/-- What a map holds after an entry was offered to it. -/
theorem lookup_record (configs : Configs) (a : AppType) (e : ConfigWithPriority) (b : AppType) :
    (record configs a e).lookup b = configs.lookup b ∨
      (b = a ∧ (record configs a e).lookup b = some e) := by
  unfold record
  rcases hval : configs.lookup a with _ | val
  · by_cases hb : b = a
    · subst hb
      exact .inr ⟨rfl, AList.lookup_insert configs⟩
    · exact .inl (AList.lookup_insert_ne hb)
  · dsimp only
    split_ifs
    · by_cases hb : b = a
      · subst hb
        exact .inr ⟨rfl, AList.lookup_insert configs⟩
      · exact .inl (AList.lookup_insert_ne hb)
    · exact .inl rfl

/-- Offering an entry covers it. -/
theorem covers_record (configs : Configs) (a : AppType) (e : ConfigWithPriority) :
    Covers (record configs a e) a e := by
  unfold record Covers
  rcases hval : configs.lookup a with _ | val
  · exact ⟨e, AList.lookup_insert configs, le_refl _⟩
  · dsimp only
    split_ifs with hlt
    · exact ⟨e, AList.lookup_insert configs, le_refl _⟩
    · exact ⟨val, hval, not_lt.mp hlt⟩

/-- Offering an entry uncovers none. -/
theorem Covers.record {configs : Configs} {b : AppType} {e' : ConfigWithPriority}
    (h : Covers configs b e') (a : AppType) (e : ConfigWithPriority) :
    Covers (record configs a e) b e' := by
  obtain ⟨val, hval, hle⟩ := h
  unfold MultiFactor.record
  by_cases hb : b = a
  · subst hb
    rw [hval]
    dsimp only
    split_ifs with hlt
    · exact ⟨e, AList.lookup_insert configs, hle.trans (le_of_lt hlt)⟩
    · exact ⟨val, hval, hle⟩
  · refine ⟨val, ?_, hle⟩
    rcases configs.lookup a with _ | old
    · rw [AList.lookup_insert_ne hb, hval]
    · dsimp only
      split_ifs
      · rw [AList.lookup_insert_ne hb, hval]
      · exact hval

/-- A file is loaded by offering its entry, if it stands for one. -/
theorem loadConfigFile_eq (dir : Dir α) (configs : Configs) (file : String) :
    loadConfigFile toConfigObject dir configs file =
      match candidate toConfigObject dir file with
      | some e => record configs e.1 e.2
      | none => configs := by
  unfold loadConfigFile candidate loadContent
  rcases dir.lookup file with _ | content
  · rfl
  · rfl

/-- What a map holds after a file was loaded. -/
theorem lookup_loadConfigFile (dir : Dir α) (configs : Configs) (file : String) (b : AppType) :
    (loadConfigFile toConfigObject dir configs file).lookup b = configs.lookup b ∨
      ∃ e, candidate toConfigObject dir file = some (b, e) ∧
        (loadConfigFile toConfigObject dir configs file).lookup b = some e := by
  rw [loadConfigFile_eq]
  rcases hc : candidate toConfigObject dir file with _ | ⟨a, e⟩
  · exact .inl rfl
  · rcases lookup_record configs a e b with h | ⟨rfl, h⟩
    · exact .inl h
    · exact .inr ⟨e, rfl, h⟩

/-- Loading a file uncovers nothing. -/
theorem Covers.loadConfigFile {configs : Configs} {b : AppType} {e : ConfigWithPriority}
    (h : Covers configs b e) (dir : Dir α) (file : String) :
    Covers (loadConfigFile toConfigObject dir configs file) b e := by
  rw [loadConfigFile_eq]
  rcases candidate toConfigObject dir file with _ | e'
  · exact h
  · exact h.record e'.1 e'.2

/-- Loading a file covers its entry. -/
theorem covers_loadConfigFile {dir : Dir α} {configs : Configs} {file : String} {a : AppType}
    {e : ConfigWithPriority} (h : candidate toConfigObject dir file = some (a, e)) :
    Covers (loadConfigFile toConfigObject dir configs file) a e := by
  rw [loadConfigFile_eq, h]
  exact covers_record configs a e

/-! ## A map built from scratch -/

/-- The map holds entries of the directory, each from a file that is a candidate for its type
(`entries`), and for every candidate the map has one of at least its priority (`covers`). -/
structure Exact (dir : Dir α) (configs : Configs) : Prop where
  entries : ∀ a e, configs.lookup a = some e → candidate toConfigObject dir e.file = some (a, e)
  covers : ∀ f a e, candidate toConfigObject dir f = some (a, e) → Covers configs a e

/-- An entry that a file stands for names the file. -/
theorem candidate_file {dir : Dir α} {f : String} {a : AppType} {e : ConfigWithPriority}
    (h : candidate toConfigObject dir f = some (a, e)) : e.file = f := by
  obtain ⟨content, -, hentry⟩ := Option.bind_eq_some_iff.mp h
  exact entryOf_file toConfigObject hentry

/-- Files loaded one after the other: the entries are those of files, and every file is covered. -/
theorem foldl_loadConfigFile (dir : Dir α) (files : List String) (configs : Configs)
    (h : ∀ a e, configs.lookup a = some e → candidate toConfigObject dir e.file = some (a, e)) :
    (∀ a e, (files.foldl (loadConfigFile toConfigObject dir) configs).lookup a = some e →
        candidate toConfigObject dir e.file = some (a, e)) ∧
      ∀ f a e, candidate toConfigObject dir f = some (a, e) → Covers configs a e ∨ f ∈ files →
        Covers (files.foldl (loadConfigFile toConfigObject dir) configs) a e := by
  induction files generalizing configs with
  | nil =>
      refine ⟨h, ?_⟩
      intro f a e _ hor
      rcases hor with hcov | hmem
      · exact hcov
      · cases hmem
  | cons file files ih =>
      have hstep : ∀ a e, (loadConfigFile toConfigObject dir configs file).lookup a = some e →
          candidate toConfigObject dir e.file = some (a, e) := by
        intro a e he
        rcases lookup_loadConfigFile toConfigObject dir configs file a with hsame | ⟨e', hc, hnew⟩
        · exact h a e (hsame ▸ he)
        · obtain rfl : e' = e := Option.some.inj (hnew.symm.trans he)
          rw [candidate_file toConfigObject hc]
          exact hc
      obtain ⟨hentries, hcovers⟩ := ih _ hstep
      refine ⟨hentries, fun f a e hc hor => hcovers f a e hc ?_⟩
      rcases hor with hcov | hmem
      · exact .inl (hcov.loadConfigFile toConfigObject dir file)
      · rcases List.mem_cons.mp hmem with rfl | hmem
        · exact .inl (covers_loadConfigFile toConfigObject hc)
        · exact .inr hmem

/-- **A map that is built from scratch**, in any order of the files, is exact. -/
theorem exact_loadConfigs (order : GoMap.RangeOrder String α) (dir : Dir α) :
    Exact toConfigObject dir (loadConfigs toConfigObject order dir) := by
  obtain ⟨hentries, hcovers⟩ := foldl_loadConfigFile toConfigObject dir
    ((order.visit dir).map Sigma.fst) ∅ (fun a e he => by simp at he)
  refine ⟨hentries, fun f a e hc => hcovers f a e hc (.inr ?_)⟩
  obtain ⟨content, hcontent, -⟩ := Option.bind_eq_some_iff.mp hc
  rw [(order.ranges dir).mem_keys_iff, hcontent]
  rfl

/-- Where priorities are distinct, an exact map is the only one. -/
theorem Exact.lookup_eq {dir : Dir α} {configs configs' : Configs}
    (h : Exact toConfigObject dir configs) (h' : Exact toConfigObject dir configs')
    (hdistinct : DistinctPriorities toConfigObject dir) (a : AppType) :
    configs.lookup a = configs'.lookup a := by
  rcases hc : configs.lookup a with _ | e
  · rcases hc' : configs'.lookup a with _ | e'
    · rfl
    · obtain ⟨val, hval, -⟩ := h.covers _ _ _ (h'.entries a e' hc')
      rw [hc] at hval
      cases hval
  · have he := h.entries a e hc
    obtain ⟨e', hc', hle⟩ := h'.covers _ _ _ he
    have he' := h'.entries a e' hc'
    obtain ⟨val, hval, hle'⟩ := h.covers _ _ _ he'
    obtain rfl : e = val := Option.some.inj (hc.symm.trans hval)
    -- the two entries have the same priority, so that they are of one file
    have hfile := hdistinct _ _ a e e' he he' (le_antisymm hle hle')
    rw [hfile, he', Option.some.injEq, Prod.mk.injEq] at he
    rw [hc', he.2]

/-! ## A map that follows the directory -/

/-- An event of the file is still to be handled. -/
def Pending (events : List DirEvent) (f : String) : Prop := ∃ ev ∈ events, ev.name = f

/-- An event that has the file loaded is still to be handled. -/
def PendingLoad (events : List DirEvent) (f : String) : Prop :=
  ∃ ev ∈ events, ev.name = f ∧ ev.op ≠ .remove

/-- When an event is handled and it is the last one of its file, the entry that was recorded from
the file, if any, is still what the file stands for; and a file that is removed does not have the
name of an application type with an entry. -/
def Unchanged (s : DirState α) : DirAction α → Prop
  | .handle => ∀ ev rest, s.events = ev :: rest →
      (∀ a e, s.configs.lookup a = some e → e.file = ev.name →
        candidate toConfigObject s.dir ev.name = some (a, e) ∨ Pending rest ev.name) ∧
      (ev.op = .remove → s.configs.lookup (.ofName ev.name) = none)
  | _ => True

/-- The entries are those of their files, and no file is missed, but for the events that are still
to be handled. -/
structure DirInv (s : DirState α) : Prop where
  entries : ∀ a e, s.configs.lookup a = some e →
    candidate toConfigObject s.dir e.file = some (a, e) ∨ Pending s.events e.file
  covers : ∀ f a e, candidate toConfigObject s.dir f = some (a, e) →
    Covers s.configs a e ∨ PendingLoad s.events f

/-- At first the map is exact. -/
theorem dirInv_init (order : GoMap.RangeOrder String α) (dir : Dir α) :
    DirInv toConfigObject (.init toConfigObject order dir) := by
  have h := exact_loadConfigs toConfigObject order dir
  exact ⟨fun a e he => .inl (h.entries a e he), fun f a e hc => .inl (h.covers f a e hc)⟩

/-- Other files stand for what they stood for. -/
theorem candidate_congr {dir dir' : Dir α} {f : String} (h : dir'.lookup f = dir.lookup f) :
    candidate toConfigObject dir' f = candidate toConfigObject dir f := by
  unfold candidate
  rw [h]

/-- **A file changes**: an event of it is then to be handled, and it has the file loaded unless the
file is gone. -/
theorem DirInv.change {s : DirState α} (h : DirInv toConfigObject s) {dir' : Dir α} {ev : DirEvent}
    (hother : ∀ g, g ≠ ev.name → dir'.lookup g = s.dir.lookup g)
    (hself : ev.op = .remove → dir'.lookup ev.name = none) :
    DirInv toConfigObject { s with dir := dir', events := s.events ++ [ev] } := by
  have hpending : ∀ {f}, Pending s.events f → Pending (s.events ++ [ev]) f := by
    rintro f ⟨ev', hmem, hname⟩
    exact ⟨ev', List.mem_append_left _ hmem, hname⟩
  constructor
  · intro a e he
    by_cases hfile : e.file = ev.name
    · exact .inr ⟨ev, by simp, hfile.symm⟩
    · rcases h.entries a e he with hc | hp
      · left
        rw [candidate_congr toConfigObject (hother e.file hfile)]
        exact hc
      · exact .inr (hpending hp)
  · intro f a e hc
    by_cases hfile : f = ev.name
    · right
      refine ⟨ev, by simp, hfile.symm, ?_⟩
      intro hremove
      rw [hfile, candidate, hself hremove] at hc
      cases hc
    · rw [candidate_congr toConfigObject (hother f hfile)] at hc
      rcases h.covers f a e hc with hcov | ⟨ev', hmem, hname⟩
      · exact .inl hcov
      · exact .inr ⟨ev', List.mem_append_left _ hmem, hname⟩

/-- **An event is handled**, and the entry recorded from its file is unchanged. -/
theorem DirInv.handle {s : DirState α} (h : DirInv toConfigObject s) {ev : DirEvent}
    {rest : List DirEvent} (hev : s.events = ev :: rest)
    (hentry : ∀ a e, s.configs.lookup a = some e → e.file = ev.name →
      candidate toConfigObject s.dir ev.name = some (a, e) ∨ Pending rest ev.name)
    (hremove : ev.op = .remove → s.configs.lookup (.ofName ev.name) = none) :
    DirInv toConfigObject { s with
      events := rest
      configs := handleEvent toConfigObject s.dir s.configs ev } := by
  -- what is known of the entries that stay
  have hold : ∀ a e, s.configs.lookup a = some e →
      candidate toConfigObject s.dir e.file = some (a, e) ∨ Pending rest e.file := by
    intro a e he
    rcases h.entries a e he with hc | ⟨ev', hmem, hname⟩
    · exact .inl hc
    · rw [hev] at hmem
      rcases List.mem_cons.mp hmem with rfl | hmem
      · rw [← hname]
        exact hentry a e he hname.symm
      · exact .inr ⟨ev', hmem, hname⟩
  by_cases hop : ev.op = .remove
  · -- nothing is deleted
    have hsame : ∀ a, (handleEvent toConfigObject s.dir s.configs ev).lookup a =
        s.configs.lookup a := by
      intro a
      unfold handleEvent removeConfig
      rw [hop]
      by_cases ha : a = .ofName ev.name
      · rw [ha, AList.lookup_erase, hremove hop]
      · exact AList.lookup_erase_ne ha
    refine ⟨fun a e he => hold a e (hsame a ▸ he), ?_⟩
    intro f a e hc
    rcases h.covers f a e hc with ⟨val, hval, hle⟩ | ⟨ev', hmem, hname, hload⟩
    · exact .inl ⟨val, (hsame a).trans hval, hle⟩
    · rw [hev] at hmem
      rcases List.mem_cons.mp hmem with rfl | hmem
      · exact absurd hop hload
      · exact .inr ⟨ev', hmem, hname, hload⟩
  · have hload : handleEvent toConfigObject s.dir s.configs ev =
        loadConfigFile toConfigObject s.dir s.configs ev.name := by
      unfold handleEvent
      rcases hcases : ev.op with _ | _ | _
      · rfl
      · rfl
      · exact absurd hcases hop
    rw [hload]
    constructor
    · intro a e he
      rcases lookup_loadConfigFile toConfigObject s.dir s.configs ev.name a with
        hsame | ⟨e', hc, hnew⟩
      · exact hold a e (hsame ▸ he)
      · left
        obtain rfl : e' = e := Option.some.inj (hnew.symm.trans he)
        rw [candidate_file toConfigObject hc]
        exact hc
    · intro f a e hc
      rcases h.covers f a e hc with hcov | ⟨ev', hmem, hname, hop'⟩
      · exact .inl (hcov.loadConfigFile toConfigObject s.dir ev.name)
      · rw [hev] at hmem
        rcases List.mem_cons.mp hmem with rfl | hmem
        · left
          rw [← hname] at hc
          exact covers_loadConfigFile toConfigObject hc
        · exact .inr ⟨ev', hmem, hname, hop'⟩

/-- **Each step** that meets the condition keeps the invariant. -/
theorem DirInv.step {s s' : DirState α} (h : DirInv toConfigObject s) {a : DirAction α} {u : Unit}
    (hunchanged : Unchanged toConfigObject s a) (hs : s.step toConfigObject a = some (s', u)) :
    DirInv toConfigObject s' := by
  obtain ⟨t, hmove, hst⟩ := Option.map_eq_some_iff.mp hs
  cases hst
  cases a with
  | create file content =>
      simp only [DirState.move, Option.ite_none_right_eq_some, Option.some.injEq] at hmove
      obtain ⟨-, rfl⟩ := hmove
      exact h.change toConfigObject (fun g hg => AList.lookup_insert_ne hg) (fun hr => by cases hr)
  | write file content =>
      simp only [DirState.move, Option.ite_none_right_eq_some, Option.some.injEq] at hmove
      obtain ⟨-, rfl⟩ := hmove
      exact h.change toConfigObject (fun g hg => AList.lookup_insert_ne hg) (fun hr => by cases hr)
  | remove file =>
      simp only [DirState.move, Option.ite_none_right_eq_some, Option.some.injEq] at hmove
      obtain ⟨-, rfl⟩ := hmove
      exact h.change toConfigObject (fun g hg => AList.lookup_erase_ne hg)
        (fun _ => AList.lookup_erase file s.dir)
  | handle =>
      rcases hev : s.events with _ | ⟨ev, rest⟩
      · rw [DirState.move, hev] at hmove
        cases hmove
      · rw [DirState.move, hev] at hmove
        cases hmove
        obtain ⟨hentry, hremove⟩ := hunchanged ev rest hev
        exact h.handle toConfigObject hev hentry hremove

/-- **The map follows the directory.** In every run of file creations, writes, removals and handled
events from a directory that has been loaded, in which no recorded file is changed or removed,
whenever all events are handled and the files of one application type have distinct priorities, the
map is the one that would be built from scratch, in any order of the files. -/
theorem configs_follow {order₀ : GoMap.RangeOrder String α} {dir₀ : Dir α}
    {acts : List (DirAction α)} {s : DirState α} {us : List Unit}
    (hrun : run (DirState.step toConfigObject) (.init toConfigObject order₀ dir₀) acts =
      some (s, us))
    (hunchanged : Along (DirState.step toConfigObject) (Unchanged toConfigObject)
      (.init toConfigObject order₀ dir₀) acts)
    (hhandled : s.events = []) (hdistinct : DistinctPriorities toConfigObject s.dir)
    (order : GoMap.RangeOrder String α) (a : AppType) :
    s.configs.lookup a = (loadConfigs toConfigObject order s.dir).lookup a := by
  have hinv : DirInv toConfigObject s := run_invariant (I := DirInv toConfigObject)
    (fun _ _ _ _ h hu hs => h.step toConfigObject hu hs)
    (dirInv_init toConfigObject order₀ dir₀) hunchanged hrun
  have hexact : Exact toConfigObject s.dir s.configs := by
    constructor
    · intro b e he
      rcases hinv.entries b e he with hc | ⟨ev, hmem, -⟩
      · exact hc
      · rw [hhandled] at hmem
        cases hmem
    · intro f b e hc
      rcases hinv.covers f b e hc with hcov | ⟨ev, hmem, -⟩
      · exact hcov
      · rw [hhandled] at hmem
        cases hmem
  exact hexact.lookup_eq toConfigObject (exact_loadConfigs toConfigObject order s.dir) hdistinct a

/-- Distinct priorities are a matter of the files that there are. -/
theorem distinctPriorities_of_keys {dir : Dir α}
    (h : ∀ f ∈ dir.keys, ∀ g ∈ dir.keys, ∀ e ∈ candidate toConfigObject dir f,
      ∀ e' ∈ candidate toConfigObject dir g, e.1 = e'.1 → e.2.priority = e'.2.priority → f = g) :
    DistinctPriorities toConfigObject dir := by
  have hkeys : ∀ {f e}, candidate toConfigObject dir f = some e → f ∈ dir.keys := by
    intro f e hc
    obtain ⟨content, hl, -⟩ := Option.bind_eq_some_iff.mp hc
    exact AList.mem_keys.mp (AList.lookup_isSome.mp (Option.isSome_iff_exists.mpr ⟨_, hl⟩))
  intro f g a e e' hf hg hpriority
  exact h f (hkeys hf) g (hkeys hg) _ hf _ hg rfl hpriority

/-- One file has a priority of its own. -/
theorem distinctPriorities_singleton (f₀ : String) (content : α) :
    DistinctPriorities toConfigObject ((∅ : Dir α).insert f₀ content) := by
  refine distinctPriorities_of_keys toConfigObject ?_
  intro f hf g hg
  have hone : ∀ f ∈ ((∅ : Dir α).insert f₀ content).keys, f = f₀ := by simp
  rw [hone f hf, hone g hg]
  exact fun _ _ _ _ _ _ => rfl

end directory

/-! ## A directory that changes -/

/-- A configuration of one factor for the login, as a file has it. -/
def passwordFile : String :=
  "\x7b\"ApplicationType\":\"login\",\"RequestVerificationType\":[\x7b\"Type\":\"password\"\x7d]\x7d"

/-- The same with another factor. -/
def faceFile : String :=
  "\x7b\"ApplicationType\":\"login\",\"RequestVerificationType\":[\x7b\"Type\":\"face\"\x7d]\x7d"

/-- How the two files are read. Source: `multifactor/config.go`, `toConfigObject`. -/
def readFile (content : String) : Option Config :=
  if content = passwordFile then some ⟨.login, [⟨.password, ""⟩]⟩
  else if content = faceFile then some ⟨.login, [⟨.face, ""⟩]⟩
  else none

/-- The event that is handled is of a file that is recorded as it is, if at all. -/
theorem unchanged_handle {s : DirState String} {ev : DirEvent} {rest : List DirEvent}
    (hev : s.events = ev :: rest)
    (hentries : ∀ e ∈ s.configs.entries, e.2.file = ev.name →
      candidate readFile s.dir ev.name = some (e.1, e.2))
    (hremove : ev.op = .remove → s.configs.lookup (.ofName ev.name) = none) :
    Unchanged readFile s .handle := by
  intro ev' rest' hev'
  obtain ⟨rfl, rfl⟩ := List.cons.inj (hev.symm.trans hev')
  refine ⟨fun a e he hfile => .inl ?_, hremove⟩
  exact hentries ⟨a, e⟩ (AList.mem_lookup_iff.mp he) hfile

/-- Two files for the login are created and loaded; the one of lower priority is then written, and
a third file, which was not for the application of its name, is removed. -/
def loginChanges : List (DirAction String) :=
  [.create "mfa-login-01.json" passwordFile, .handle, .create "mfa-login-02.json" faceFile, .handle,
    .create "mfa-lock-01.json" faceFile, .handle, .write "mfa-login-01.json" faceFile, .handle,
    .remove "mfa-lock-01.json", .handle]

/-- The map has the configuration of greater priority, as it would be loaded. -/
theorem configs_follow_login :
    ∃ s us, run (DirState.step readFile) (.init readFile (.listed _ _) ∅) loginChanges =
        some (s, us) ∧
      s.configs.lookup .login = some ⟨⟨.login, [⟨.face, ""⟩]⟩, 2, "mfa-login-02.json"⟩ ∧
      s.configs.lookup .login = (loadConfigs readFile (.listed _ _) s.dir).lookup .login := by
  obtain ⟨s, us, hr, hevents, hkeys, hl⟩ : ∃ s us, run (DirState.step readFile)
      (.init readFile (.listed _ _) ∅) loginChanges = some (s, us) ∧ s.events = [] ∧
        DistinctPriorities readFile s.dir ∧
        s.configs.lookup .login = some ⟨⟨.login, [⟨.face, ""⟩]⟩, 2, "mfa-login-02.json"⟩ :=
    ⟨_, _, rfl, rfl, distinctPriorities_of_keys readFile (by decide +kernel), rfl⟩
  refine ⟨s, us, hr, hl, configs_follow readFile hr ?_ hevents hkeys (.listed _ _) .login⟩
  refine (along_cons_of_eq rfl).mpr ⟨trivial, (along_cons_of_eq rfl).mpr ⟨?_, ?_⟩⟩
  · exact unchanged_handle rfl (fun e he => absurd he List.not_mem_nil) (fun h => by cases h)
  refine (along_cons_of_eq rfl).mpr ⟨trivial, (along_cons_of_eq rfl).mpr ⟨?_, ?_⟩⟩
  · exact unchanged_handle rfl (by decide +kernel) (fun h => by cases h)
  refine (along_cons_of_eq rfl).mpr ⟨trivial, (along_cons_of_eq rfl).mpr ⟨?_, ?_⟩⟩
  · exact unchanged_handle rfl (by decide +kernel) (fun h => by cases h)
  refine (along_cons_of_eq rfl).mpr ⟨trivial, (along_cons_of_eq rfl).mpr ⟨?_, ?_⟩⟩
  · exact unchanged_handle rfl (by decide +kernel) (fun h => by cases h)
  refine (along_cons_of_eq rfl).mpr ⟨trivial, (along_cons_of_eq rfl).mpr ⟨?_, trivial⟩⟩
  exact unchanged_handle rfl (by decide +kernel) (fun _ => by decide +kernel)

/-- A file is edited after it was loaded, and the map keeps what it held before. -/
theorem edited_file_ignored :
    ¬ ∀ (α : Type) (toConfigObject : α → Option Config) order₀ dir₀ acts s us,
      run (DirState.step toConfigObject) (.init toConfigObject order₀ dir₀) acts = some (s, us) →
        s.events = [] → DistinctPriorities toConfigObject s.dir →
          ∀ order a, s.configs.lookup a = (loadConfigs toConfigObject order s.dir).lookup a := by
  intro hall
  have h := hall String readFile (.listed _ _) (AList.singleton "mfa-login-01.json" passwordFile)
    [.write "mfa-login-01.json" faceFile, .handle] _ _ rfl rfl
    (distinctPriorities_singleton readFile "mfa-login-01.json" faceFile) (.listed _ _) .login
  exact absurd h (by decide)

end LingmoAuthenticate.MultiFactor
