import LingmoAuthenticate.Chara.Records
import LingmoAuthenticate.Lib.Machine

/-!
# Enrolling: `charaManager/manager_ifc.go` and `charaDataManger/manager.go`

The name of a new record is checked when the enrolment starts, and the record is saved when the
client stops it, after the driver has said that it is complete. In between, other clients of the
user enrol, rename and delete, and drivers list their records anew. Each call runs in a goroutine;
what it does under one lock is one step.

* `State.next`: the next step of `EnrollStart`, `EnrollStop` or `Delete`.
* `unique_step_iff`: the steps that can leave two available records of one name.
* `names_unique_iff`: names stay unique in a run exactly where every name that is saved is free by
  then, no record is renamed before one of the new name is seen, and no driver lists two records of
  one name.
-/

namespace LingmoAuthenticate.Chara

open Lib

/-! ## The manager and its calls -/

/-- Source: `authcommon/face.go`, `FaceEnrollInvalid`. -/
def faceEnrollInvalid : ℤ := -1

/-- Source: `authcommon/face.go`, `FaceEnrollSuccess`. -/
def faceEnrollSuccess : ℤ := 0

/-- Source: `authcommon/type.go`, `ActionType`. -/
inductive ActionType where
  | enroll
  | verify
  deriving DecidableEq, Repr

/-- An action; its number is its pointer, and its `CharaInfo` is the record of the same number.
Source: `charaDataManger/manager.go`, `ActionInfo`. -/
structure ActionInfo where
  uniqueSenderName : String
  uniqueReceiverName : String
  receiverName : String
  actionType : ActionType
  charaType : CharaType
  code : ℤ
  deriving DecidableEq, Repr

/-- How far a call is: what it does next. -/
inductive Call where
  /-- `EnrollStart`: the driver is looked for. -/
  | getDriver (sender driverName : String) (charaType : CharaType) (charaName : String)
  /-- `EnrollStart`: a key and an action are made. -/
  | genActionId (sender driverName : String) (charaType : CharaType) (charaName : String)
  /-- `EnrollStart`: the driver starts. -/
  | enrollStart (action : ℕ) (chara charaName : String)
  /-- `EnrollStart`: the action is looked for. -/
  | getActionInfo (action : ℕ) (chara charaName : String)
  /-- `EnrollStart`: the record is written into the action. -/
  | setCharaInfo (action : ℕ) (chara charaName : String)
  /-- `EnrollStop`: the driver stops. -/
  | enrollStop (action : ℕ)
  /-- `EnrollStop`: has the driver said that it is complete? -/
  | checkCode (action : ℕ)
  /-- `EnrollStop`: the action is looked for again. -/
  | getSaved (action : ℕ)
  /-- `EnrollStop`: the record is saved. -/
  | saveCharaInfo (action : ℕ)
  /-- The action is released. -/
  | release (action : ℕ)
  /-- `Delete`: the driver deletes. -/
  | deleteChara (charaInfo : ℕ)
  deriving DecidableEq, Repr

/-- The records, the actions by client and type, and the calls that are under way, by their
goroutines. Source: `charaDataManger/manager.go`, `CharaDataManager`. -/
structure State where
  records : Records
  actions : ℕ → ActionInfo
  actionMap : GoMap (String × CharaType) ℕ
  refs : ℕ
  calls : ℕ → Option Call

/-- What a step finds outside of the service: the user of a client, the owner of the name of a
driver, whether the driver is found and free, whether it answers well, a new key, the time, and the
order of the loops. -/
structure Answers where
  uuid : Option String
  unionName : Option String
  driver : Bool
  ok : Bool
  chara : String
  now : ℤ
  order : Order

/-- What happens: a call comes in and takes its first step, or goes on; a driver signals; an action
is started by a verification, or released by whoever listens to it. -/
inductive Action where
  | enrollStart (i : ℕ) (sender driverName : String) (charaType : CharaType) (charaName : String)
      (env : Answers)
  | enrollStop (i : ℕ) (sender : String) (action : ℕ)
  | rename (uuid : String) (charaType : CharaType) (oldName newName : String) (order : Order)
  | delete (i : ℕ) (uuid : String) (charaType : CharaType) (charaName : String) (order : Order)
  | next (i : ℕ) (env : Answers)
  | enrollStatus (action : ℕ) (code : ℤ)
  | verifyStart (sender driverName : String) (unionName : Option String) (charaType : CharaType)
  | releaseActionId (action : ℕ)
  | listChange (serverName : String) (chara : List String) (order : Order)
  | typeChange (serverName : String) (charaDelete : CharaType) (order : Order)

namespace State

/-- The action is under way. -/
def HasAction (s : State) (action : ℕ) : Prop :=
  (s.actionMap.entries.any fun e => e.2 = action) = true

instance (s : State) (action : ℕ) : Decidable (s.HasAction action) :=
  inferInstanceAs (Decidable (_ = true))

/-- A call goes on. -/
def goOn (s : State) (i : ℕ) (c : Call) : State :=
  { s with calls := Function.update s.calls i (some c) }

/-- A call has returned. -/
def done (s : State) (i : ℕ) : State := { s with calls := Function.update s.calls i none }

/-- A record is written. -/
def setRecord (s : State) (charaInfo : ℕ) (info : CharaInfo) : State :=
  { s with records.heap := Function.update s.records.heap charaInfo info }

/-- The client enrols. Source: the loops of `CharaDataManager.CheckErollAvaliable` and
`CharaDataManager.GetErollActionInfo`. -/
def enrolls (s : State) (sender : String) : Bool :=
  s.actionMap.entries.any fun e => (s.actions e.2).actionType = .enroll ∧
    (s.actions e.2).uniqueSenderName = sender

/-- Whether the client may enrol: it does not enrol already, its user is known and the name is not
taken. Source: `charaDataManger/manager.go`, `CharaDataManager.CheckErollAvaliable`. -/
def checkErollAvaliable (s : State) (sender : String) (charaType : CharaType) (charaName : String)
    (env : Answers) : Bool :=
  if s.enrolls sender then false
  else
    match env.uuid with
    | none => false
    | some uuid => s.records.checkCharaNameAvailable env.order uuid charaType charaName

/-- A new action, unless the client has one of the type, or nobody owns the name of the driver.
Source: `charaDataManger/manager.go`, `CharaDataManager.GenActionId`. -/
def genActionId (s : State) (sender driverName : String) (unionName : Option String)
    (actionType : ActionType) (charaType : CharaType) : Option (State × ℕ) :=
  if (s.actionMap.lookup (sender, charaType)).isSome then none
  else
    unionName.map fun unionName =>
      ({ s with
        actions := Function.update s.actions s.refs
          ⟨sender, unionName, driverName, actionType, charaType, faceEnrollInvalid⟩
        records.heap := Function.update s.records.heap s.refs .zero
        actionMap := s.actionMap.insert (sender, charaType) s.refs
        refs := s.refs + 1 }, s.refs)

/-- Source: `charaDataManger/manager.go`, `CharaDataManager.ReleasseActionId`. -/
def releaseActionId (s : State) (action : ℕ) : State :=
  { s with actionMap := s.actionMap.keep fun _ val => val ≠ action }

/-- What a driver says of an action is remembered. Source: `charaDataManger/manager.go`,
`CharaDataManager.handleDriverSignalEnrollStatus`; that it is passed on is left out. -/
def setCode (s : State) (action : ℕ) (code : ℤ) : State :=
  if s.HasAction action then
    { s with actions := Function.update s.actions action { s.actions action with code } }
  else s

/-- The next step of a call. Source: `charaManager/manager_ifc.go`, `Manager.EnrollStart`,
`Manager.EnrollStop` and `Manager.Delete`; `charaManager/manager.go`,
`Manager.saveCharaInfoToActionInfo` and `Manager.saveCharaInfoToCharaData`. -/
def next (s : State) (i : ℕ) (env : Answers) : Call → State
  | .getDriver sender driverName charaType charaName =>
      if env.driver then s.goOn i (.genActionId sender driverName charaType charaName)
      else s.done i
  | .genActionId sender driverName charaType charaName =>
      match s.genActionId sender driverName env.unionName .enroll charaType with
      | none => s.done i
      | some (t, action) => t.goOn i (.enrollStart action env.chara charaName)
  | .enrollStart action chara charaName =>
      if env.ok then s.goOn i (.getActionInfo action chara charaName)
      else s.goOn i (.release action)
  | .getActionInfo action chara charaName =>
      if s.HasAction action then s.goOn i (.setCharaInfo action chara charaName)
      else s.goOn i (.release action)
  | .setCharaInfo action chara charaName =>
      match env.uuid with
      | none => s.goOn i (.release action)
      | some uuid =>
          (s.setRecord action ⟨(s.actions action).receiverName, uuid,
            (s.actions action).charaType, charaName, chara, false, 0⟩).done i
  | .enrollStop action =>
      if env.driver ∧ env.ok then s.goOn i (.checkCode action) else s.done i
  | .checkCode action =>
      if ((s.actions action).charaType = authenticationFlagFace ∧
            (s.actions action).code = faceEnrollSuccess) ∨
          ((s.actions action).charaType = authenticationFlagIris ∧
            (s.actions action).code = faceEnrollSuccess) then s.goOn i (.getSaved action)
      else s.goOn i (.release action)
  | .getSaved action =>
      if s.HasAction action then s.goOn i (.saveCharaInfo action) else s.goOn i (.release action)
  | .saveCharaInfo action =>
      { s with records := s.records.saveCharaInfo action env.now }.goOn i (.release action)
  | .release action => (s.releaseActionId action).done i
  | .deleteChara charaInfo =>
      if env.driver ∧ env.ok then
        { s with
          records := s.records.deleteChara env.order (s.records.heap charaInfo).uuid
            (s.records.heap charaInfo).charaType (s.records.heap charaInfo).charaName }.done i
      else s.done i

/-- One step. A call comes in under an idle goroutine; the first step of `EnrollStart` checks the
name, that of `EnrollStop` finds an enrolment of the client, and that of `Delete` a record of the
name. -/
def move (s : State) : Action → Option State
  | .enrollStart i sender driverName charaType charaName env =>
      if (s.calls i).isSome then none
      else if s.checkErollAvaliable sender charaType charaName env then
        some (s.goOn i (.getDriver sender driverName charaType charaName))
      else some s
  | .enrollStop i sender action =>
      if (s.calls i).isSome then none
      else if s.HasAction action ∧ (s.actions action).actionType = .enroll ∧
          (s.actions action).uniqueSenderName = sender then
        some (s.goOn i (.enrollStop action))
      else none
  | .rename uuid charaType oldName newName order =>
      some { s with
        records := (s.records.changeCharaName order uuid charaType oldName newName).1 }
  | .delete i uuid charaType charaName order =>
      if (s.calls i).isSome then none
      else
        match (order.visit s.records.charaInfoMap).find? fun e =>
            (s.records.heap e.2).uuid = uuid ∧ (s.records.heap e.2).charaType = charaType ∧
              (s.records.heap e.2).charaName = charaName with
        | some e => some (s.goOn i (.deleteChara e.2))
        | none => some s
  | .next i env => (s.calls i).map fun c => s.next i env c
  | .enrollStatus action code => some (s.setCode action code)
  | .verifyStart sender driverName unionName charaType =>
      (s.genActionId sender driverName unionName .verify charaType).map Prod.fst
  | .releaseActionId action => some (s.releaseActionId action)
  | .listChange serverName chara order =>
      some { s with records := s.records.handleDriverListChange order serverName chara }
  | .typeChange serverName charaDelete order =>
      some { s with records := s.records.setUnavailable order serverName charaDelete }

/-- One step, with nothing observed: the records are read from the state. -/
def step (s : State) (a : Action) : Option (State × Unit) := (s.move a).map fun s => (s, ())

/-- The service has started without records. -/
def init : State :=
  ⟨⟨fun _ => .zero, ∅⟩, fun _ => ⟨"", "", "", .enroll, 0, 0⟩, ∅, 0, fun _ => none⟩

/-- What does not go wrong in a step: a name that is saved is free; a record of the new name is seen
before one of the old name is renamed; a driver does not list two records of one name. -/
def Orderly (s : State) : Action → Prop
  | .next i _ => ∀ action, s.calls i = some (.saveCharaInfo action) → s.records.NameFree action
  | .rename uuid charaType oldName newName order =>
      s.records.NewNameFirst order uuid charaType oldName newName
  | .listChange serverName chara order => s.records.ListedUnique order serverName chara
  | _ => True

/-! ## What one step does to the names -/

/-- A record that is written and is not available leaves the names unique. -/
theorem unique_setHeap {m : Records} (h : m.Unique) (charaInfo : ℕ) {info : CharaInfo}
    (hinfo : info.bAvailable = false) :
    Records.Unique { m with heap := Function.update m.heap charaInfo info } := by
  refine h.mono ?_
  intro k r hk hr
  dsimp only at hr ⊢
  have hne : r ≠ charaInfo := by
    rintro rfl
    rw [Function.update_self, hinfo] at hr
    cases hr
  rw [Function.update_of_ne hne] at hr ⊢
  exact ⟨hk, hr, Records.sameName_refl _⟩

/-- A new action leaves the names unique. -/
theorem unique_genActionId {s t : State} {sender driverName : String} {unionName : Option String}
    {actionType : ActionType} {charaType : CharaType} {action : ℕ} (h : s.records.Unique)
    (hg : s.genActionId sender driverName unionName actionType charaType = some (t, action)) :
    t.records.Unique := by
  unfold genActionId at hg
  rw [Option.ite_none_left_eq_some, Option.map_eq_some_iff] at hg
  obtain ⟨-, unionName, -, heq⟩ := hg
  cases heq
  exact unique_setHeap h s.refs rfl

/-- **One step of a call.** -/
theorem unique_next_iff {s : State} (h : s.records.Unique) (i : ℕ) (env : Answers) (c : Call) :
    (s.next i env c).records.Unique ↔
      ∀ action, c = .saveCharaInfo action → s.records.NameFree action := by
  cases c with
  | saveCharaInfo action =>
      refine (Records.unique_saveCharaInfo_iff h action env.now).trans ?_
      constructor
      · rintro hfree action' ⟨⟩
        exact hfree
      · intro hfree
        exact hfree action rfl
  | getDriver | enrollStart | getActionInfo | enrollStop | checkCode | getSaved =>
      refine iff_of_true ?_ (fun action hc => by cases hc)
      simp only [next]
      split_ifs
      · exact h
      · exact h
  | genActionId sender driverName charaType charaName =>
      refine iff_of_true ?_ (fun action hc => by cases hc)
      simp only [next]
      rcases hg : s.genActionId sender driverName env.unionName .enroll charaType with
        _ | ⟨t, action⟩
      · exact h
      · have ht : t.records.Unique := unique_genActionId h hg
        exact ht
  | setCharaInfo action chara charaName =>
      refine iff_of_true ?_ (fun action hc => by cases hc)
      simp only [next]
      rcases env.uuid with _ | uuid
      · exact h
      · exact unique_setHeap h action rfl
  | release action => exact iff_of_true h (fun action hc => by cases hc)
  | deleteChara charaInfo =>
      refine iff_of_true ?_ (fun action hc => by cases hc)
      simp only [next]
      split_ifs
      · exact h.deleteChara env.order _ _ _
      · exact h

/-- **One step**, where names have been unique so far. -/
theorem unique_step_iff {s t : State} (h : s.records.Unique) {a : Action} {u : Unit}
    (hs : s.step a = some (t, u)) : t.records.Unique ↔ s.Orderly a := by
  obtain ⟨t', hmove, heq⟩ := Option.map_eq_some_iff.mp hs
  cases heq
  cases a with
  | enrollStart i sender driverName charaType charaName env =>
      simp only [move, Option.ite_none_left_eq_some] at hmove
      obtain ⟨-, hmove⟩ := hmove
      refine iff_of_true ?_ trivial
      split_ifs at hmove
      · cases hmove
        exact h
      · cases hmove
        exact h
  | enrollStop i sender action =>
      simp only [move, Option.ite_none_left_eq_some, Option.ite_none_right_eq_some,
        Option.some.injEq] at hmove
      obtain ⟨-, -, rfl⟩ := hmove
      exact iff_of_true h trivial
  | rename uuid charaType oldName newName order =>
      cases hmove
      exact Records.unique_changeCharaName_iff h order
  | delete i uuid charaType charaName order =>
      simp only [move, Option.ite_none_left_eq_some] at hmove
      obtain ⟨-, hmove⟩ := hmove
      refine iff_of_true ?_ trivial
      split at hmove
      · cases hmove
        exact h
      · cases hmove
        exact h
  | next i env =>
      obtain ⟨c, hc, rfl⟩ := Option.map_eq_some_iff.mp hmove
      rw [unique_next_iff h i env c]
      constructor
      · intro hfree action hcall
        exact hfree action (Option.some.inj (hc.symm.trans hcall))
      · rintro hfree action rfl
        exact hfree action hc
  | enrollStatus action code =>
      cases hmove
      refine iff_of_true ?_ trivial
      unfold setCode
      split_ifs
      · exact h
      · exact h
  | verifyStart sender driverName unionName charaType =>
      obtain ⟨⟨t, action⟩, hg, rfl⟩ := Option.map_eq_some_iff.mp hmove
      exact iff_of_true (unique_genActionId h hg) trivial
  | releaseActionId action =>
      cases hmove
      exact iff_of_true h trivial
  | listChange serverName chara order =>
      cases hmove
      exact Records.unique_handleDriverListChange_iff s.records order serverName chara
  | typeChange serverName charaDelete order =>
      cases hmove
      exact iff_of_true (h.setUnavailable order serverName charaDelete) trivial

/-- **Unique names.** In every state of a run at most one record of each user, type and name is
available, exactly where that is so at first and nothing goes wrong along the run: every name that
is saved is free by then, no record is renamed before one of the new name is seen, and no driver
lists two records of one name. -/
theorem names_unique_iff (s₀ : State) (acts : List Action) :
    (∀ cs (s : State) us, cs <+: acts → run step s₀ cs = some (s, us) → s.records.Unique) ↔
      s₀.records.Unique ∧ Along step Orderly s₀ acts := by
  have halong : s₀.records.Unique →
      ((∀ cs (s : State) us, cs <+: acts → run step s₀ cs = some (s, us) → s.records.Unique) ↔
        Along step Orderly s₀ acts) := by
    intro h₀
    refine reached_iff_along (J := fun _ => True) (I := fun s : State => s.records.Unique)
      (fun _ _ _ _ _ _ => trivial) ?_ ?_ trivial h₀ acts
    · intro s a t u _ h hs
      exact unique_step_iff h hs
    · intro s a hs
      cases a with
      | next i env =>
          intro action hc
          simp [step, move, hc] at hs
      | rename | listChange => cases hs
      | enrollStart | enrollStop | delete | enrollStatus | verifyStart | releaseActionId
      | typeChange => trivial
  constructor
  · intro h
    have h₀ : s₀.records.Unique := h [] s₀ [] List.nil_prefix rfl
    exact ⟨h₀, (halong h₀).mp h⟩
  · rintro ⟨h₀, h⟩
    exact (halong h₀).mpr h

/-! ## Two clients of one user -/

/-- The user is known, the driver is found and free, and all is answered well. -/
def goodAnswers (chara : String) : Answers :=
  ⟨some "1000", some ":1.9", true, true, chara, 0, .listed _ _⟩

/-- A call goes on so many times. -/
def nexts (n i : ℕ) (chara : String) : List Action :=
  List.replicate n (.next i (goodAnswers chara))

/-- Two clients of one user start to enrol under one name, and both complete. -/
def enrolTwice : List Action :=
  [.enrollStart 0 ":1.1" "com.lingmo.face" 4 "me" (goodAnswers "c1"),
    .enrollStart 1 ":1.2" "com.lingmo.face" 4 "me" (goodAnswers "c2")] ++ nexts 5 0 "c1" ++
  nexts 5 1 "c2" ++ [.enrollStatus 0 0, .enrollStatus 1 0, .enrollStop 2 ":1.1" 0] ++
  nexts 5 2 "" ++ [.enrollStop 3 ":1.2" 1] ++ nexts 5 3 ""

/-- Both records are then available. -/
theorem enrolled_twice :
    ¬ ∀ (acts : List Action) (s : State) us, run step init acts = some (s, us) →
      s.records.Unique := by
  intro hall
  obtain ⟨s, us, hr, hc₁, hc₂, hs₁, hs₂, hsame⟩ : ∃ (s : State) (us : List Unit),
      run step init enrolTwice = some (s, us) ∧
      s.records.charaInfoMap.lookup "c1" = some 0 ∧
      s.records.charaInfoMap.lookup "c2" = some 1 ∧
      (s.records.heap 0).bAvailable = true ∧ (s.records.heap 1).bAvailable = true ∧
      SameName (s.records.heap 0) (s.records.heap 1) :=
    ⟨_, _, rfl, rfl, rfl, rfl, rfl, rfl, rfl, rfl⟩
  have h := hall enrolTwice s us hr "c1" "c2" 0 1 hc₁ hc₂ hs₁ hs₂ hsame
  exact absurd h (by decide)

end State

end LingmoAuthenticate.Chara
