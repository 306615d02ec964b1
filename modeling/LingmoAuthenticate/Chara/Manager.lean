import LingmoAuthenticate.Chara.Rename
import LingmoAuthenticate.Chara.TypeChange

/-!
# Calls of clients: `charaManager/manager_ifc.go`

`EnrollStart` and `Delete` come in over the bus. Each asks for the password, looks for the driver
and tells it what to do; what the driver is told is kept in the order in which it is told. An
enrolment has a channel of its own, which is in two maps, and a goroutine that listens to it. A
deletion looks for the record twice.

* `getDriver_eq`: the driver that is found, and what looking for it does to the manager.
* `EnrollEnds`: the four ways in which `EnrollStart` ends, which are all (`enrollStart_ends`).
* `enrollStart_no_trace_iff`: an enrolment that fails leaves no trace exactly where it is not the
  driver that fails.
* `delete_eq`: what `Delete` does.
* `delete_on_device_iff`: what is deleted is what was deleted on the device exactly where both loops
  come to it.
-/

namespace LingmoAuthenticate.Chara

open Lib

/-! ## The manager -/

/-- What a driver is told, by the name of its service; an enrolment starts or not.
Source: the methods of `BiometricsDriver`. -/
inductive DriverCall where
  | enrollStart (service chara : String) (charaType : CharaType) (actionId : ℕ) (ok : Bool)
  | enrollStop (service : String) (actionId : ℕ)
  | delete (service chara : String)
  deriving DecidableEq, Repr

/-- The records and the actions; the channels of the enrolments, each of which has the number of its
action; the actions that a goroutine listens to; and what the drivers were told.
Source: `charaManager/manager.go`, `Manager`. -/
structure Manager where
  charaData : CharaDataManager
  codeChanMap : GoMap ℕ ℕ
  listeners : List ℕ
  told : List DriverCall

/-- What a call finds outside of the service: whether the password is given, the user of the client,
when it is asked for first and when it is asked for again, a new key, the owner of the name of the
driver, what a driver answers that enrols or deletes, and the order of the loop of a deletion. -/
structure CallAnswers extends DriverAnswers where
  checkAuth : String → Bool
  uuid : Option String
  uuidAgain : Option String
  chara : String
  unionName : Option String
  enrollStart : Option ℕ
  delete : Bool
  deleteOrder : Order

/-- What is found of it by who checks the name. -/
def CallAnswers.answers (env : CallAnswers) : Answers where
  uuid := env.uuid
  unionName := env.unionName
  driver := true
  ok := true
  chara := env.chara
  now := 0
  order := env.order

/-- What the password is asked for. -/
inductive PasswdAction where
  | enroll
  | delete
  | rename
  deriving DecidableEq, Repr

/-- A type of several flags counts as a face first. Source: `charaManager/manager.go`,
`Manager.getCheckPasswdActionId`. -/
def getCheckPasswdActionId (action : PasswdAction) (charaType : CharaType) : Option String :=
  match action with
  | .enroll =>
      if charaType &&& authenticationFlagFace ≠ 0 then
        some "com.deepin.daemon.authenticate.Face.enroll"
      else if charaType &&& authenticationFlagIris ≠ 0 then
        some "com.deepin.daemon.authenticate.Iris.enroll"
      else none
  | .delete =>
      if charaType &&& authenticationFlagFace ≠ 0 then
        some "com.deepin.daemon.authenticate.Face.delete-enrolled-face"
      else if charaType &&& authenticationFlagIris ≠ 0 then
        some "com.deepin.daemon.authenticate.Iris.delete-enrolled-iris"
      else none
  | .rename =>
      if charaType &&& authenticationFlagFace ≠ 0 then
        some "com.deepin.daemon.authenticate.Face.rename-enrolled-face"
      else if charaType &&& authenticationFlagIris ≠ 0 then
        some "com.deepin.daemon.authenticate.Iris.rename-enrolled-iris"
      else none

namespace CharaDataManager

/-- A new action, unless the client has one of the type, or nobody owns the name of the driver.
Source: `charaDataManger/manager.go`, `CharaDataManager.GenActionId`. -/
def genActionId (sender driverName : String) (unionName : Option String)
    (actionType : ActionType) (charaType : CharaType) : Op (Option ℕ) :=
  Locking.withLock .actionMapMtx .write do
    let m ← Locking.get
    match m.state.genActionId sender driverName unionName actionType charaType with
    | none => pure none
    | some (state, actionId) => do
        Locking.modify fun m => { m with state }
        pure (some actionId)

/-- Source: `charaDataManger/manager.go`, `CharaDataManager.ReleasseActionId`. -/
def releasseActionId (actionId : ℕ) : Op Unit :=
  change .actionMapMtx fun m => { m with state := m.state.releaseActionId actionId }

/-- Whether the action is under way. Source: `charaDataManger/manager.go`,
`CharaDataManager.GetActionInfo`. -/
def getActionInfo (actionId : ℕ) : Op Bool :=
  Locking.withLock .actionMapMtx .read do
    let m ← Locking.get
    pure (decide (m.state.HasAction actionId))

/-- The first record of the user, type and name, available or not; no mutex is held.
Source: `charaDataManger/manager.go`, `CharaDataManager.GetCharaInfo`. -/
def getCharaInfo (m : CharaDataManager) (order : Order) (uuid : Option String)
    (charaType : CharaType) (charaName : String) : Option ℕ :=
  match uuid with
  | none => none
  | some uuid =>
      ((order.visit m.state.records.charaInfoMap).find? fun e =>
        Called uuid charaType charaName (m.state.records.heap e.2)).map fun e => e.2

/-! ## Looking for a driver -/

/-- The records and the actions are as they were, but for which records are available. Asking the
drivers for their lists sets this mark before most calls and changes nothing else. -/
structure UpToAvailability (m m' : CharaDataManager) : Prop where
  actions : m'.state.actions = m.state.actions
  actionMap : m'.state.actionMap = m.state.actionMap
  refs : m'.state.refs = m.state.refs
  charaInfoMap : m'.state.records.charaInfoMap = m.state.records.charaInfoMap
  heap : ∀ r, ∃ b, m'.state.records.heap r = { m.state.records.heap r with bAvailable := b }

section

variable {m m' m'' : CharaDataManager} {env : DriverAnswers} {held : Held Mutex}
  {driver : CommonDriver} {serverName : String} {old new charaType : CharaType}

theorem UpToAvailability.refl (m : CharaDataManager) : UpToAvailability m m :=
  ⟨rfl, rfl, rfl, rfl, fun _ => ⟨_, rfl⟩⟩

theorem UpToAvailability.trans (h : UpToAvailability m m') (h' : UpToAvailability m' m'') :
    UpToAvailability m m'' := by
  refine ⟨h'.actions.trans h.actions, h'.actionMap.trans h.actionMap, h'.refs.trans h.refs,
    h'.charaInfoMap.trans h.charaInfoMap, fun r => ?_⟩
  obtain ⟨b, hb⟩ := h.heap r
  obtain ⟨b', hb'⟩ := h'.heap r
  exact ⟨b', by rw [hb', hb]⟩

/-- Records that are matched with a list. -/
theorem upToAvailability_matchList :
    UpToAvailability m (m.matchList env driver old new) := by
  refine ⟨matchList_actions.1, matchList_actions.2.1, ?_, matchList_actions.2.2,
    fun r => ⟨_, heap_matchList r⟩⟩
  unfold matchList
  split_ifs
  · rfl
  · rfl

/-- Records of types that are gone. -/
theorem upToAvailability_setUnavailable {gone : CharaType} :
    UpToAvailability m
      (m.setRecords fun records => records.setUnavailable env.order serverName gone) := by
  refine ⟨rfl, rfl, rfl, rfl, fun r => ?_⟩
  show ∃ b, (m.state.records.setUnavailable env.order serverName gone).heap r = _
  rw [Records.setUnavailable_heap, Records.foldl_withoutType]
  unfold Records.withoutType
  split_ifs
  · exact ⟨_, rfl⟩
  · exact ⟨_, rfl⟩
  · exact ⟨_, rfl⟩

/-- Types that change. -/
theorem upToAvailability_charaTypeChange {actions : GoMap.RangeOrder (String × CharaType) ℕ} :
    UpToAvailability m (m.charaTypeChange env actions driver old new).1 := by
  unfold charaTypeChange
  dsimp only
  rw [tellActions_fst]
  split_ifs
  · exact upToAvailability_matchList.trans upToAvailability_setUnavailable
  · exact upToAvailability_matchList

theorem upToAvailability_setDriverCharaType :
    UpToAvailability m (m.setDriverCharaType serverName charaType) := by
  unfold setDriverCharaType
  split
  · exact .refl m
  · exact ⟨rfl, rfl, rfl, rfl, fun _ => ⟨_, rfl⟩⟩

/-- The types of a driver are brought up to date. -/
theorem updateCharaType_eq (hinfo : ¬ held.Conflicts .charaInfoMtx .write)
    (haction : ¬ held.Conflicts .actionMapMtx .read) :
    ∃ m', updateCharaType env driver charaType held m = .ok ((), m') ∧ UpToAvailability m m' := by
  unfold updateCharaType
  split_ifs
  · rw [Locking.bind_of_eq
      (@handleDriverCharaTypeChange_eq _ _ (.listed _ _) _ _ _ _ hinfo haction)]
    exact ⟨_, rfl, upToAvailability_charaTypeChange.trans upToAvailability_setDriverCharaType⟩
  · exact ⟨m, rfl, .refl m⟩

/-- The driver that is found under a name, and whether it is claimed. -/
def foundDriver (m : CharaDataManager) (env : DriverAnswers) (serverName : String)
    (charaType : CharaType) : Option CommonDriver × Bool :=
  match m.serverMap.lookup serverName, env.charaType serverName with
  | some driver, some tempCharaType =>
      if tempCharaType &&& charaType ≠ 0 then
        (some { driver with driverCharaType := tempCharaType },
          (env.claim serverName).getD false)
      else (none, false)
  | _, _ => (none, false)

/-- **Looking for a driver** finds it, and leaves the actions as they were. -/
theorem getDriver_eq (m : CharaDataManager) (env : DriverAnswers) (serverName : String)
    (charaType : CharaType) :
    ∃ m', getDriver env serverName charaType [] m = .ok (m.foundDriver env serverName charaType, m')
      ∧ UpToAvailability m m' := by
  unfold getDriver foundDriver
  rw [Locking.withLock_of_not_conflicts (by decide)]
  show ∃ m', (match m.serverMap.lookup serverName, env.charaType serverName with
    | some driver, some tempCharaType => _
    | _, _ => _ : Op (Option CommonDriver × Bool)) _ m = _ ∧ _
  rcases m.serverMap.lookup serverName with _ | driver
  · exact ⟨m, rfl, .refl m⟩
  rcases env.charaType serverName with _ | tempCharaType
  · exact ⟨m, rfl, .refl m⟩
  dsimp only
  by_cases hzero : tempCharaType = 0
  · have hnone : ¬ tempCharaType &&& charaType ≠ 0 := by
      rw [hzero]
      exact not_not_intro BitVec.zero_and
    rw [if_pos hzero, if_neg hnone]
    exact ⟨m, rfl, .refl m⟩
  · rw [if_neg hzero]
    obtain ⟨m', hupdate, hsame⟩ := @updateCharaType_eq m env [(Mutex.serverMtx, Mode.read)] driver
      tempCharaType (by decide) (by decide)
    rw [Locking.bind_of_eq hupdate]
    split_ifs
    · exact ⟨m', rfl, hsame⟩
    · exact ⟨m', rfl, hsame⟩

end

end CharaDataManager

namespace Manager

/-- A call, which locks what it needs of the records and the actions. -/
abbrev Op (α : Type) := Locking Mutex Manager α

/-- An operation on the records and the actions. -/
def onCharaData {α : Type} (p : CharaDataManager.Op α) : Op α := fun held m =>
  match p held m.charaData with
  | .error mtx => .error mtx
  | .ok (a, charaData) => .ok (a, { m with charaData })

/-- A driver is told something. -/
def tell (call : DriverCall) : Op Unit :=
  Locking.modify fun m => { m with told := m.told ++ [call] }

/-- Source: `charaManager/manager.go`, `Manager.saveCharaInfoToActionInfo`. -/
def saveCharaInfoToActionInfo (env : CallAnswers) (actionId : ℕ) (charaName : String) :
    Op Bool := do
  if ← onCharaData (CharaDataManager.getActionInfo actionId) then
    match env.uuidAgain with
    | none => pure false
    | some uuid => do
        Locking.modify fun m =>
          let actionInfo := m.charaData.state.actions actionId
          let charaInfo :=
            ⟨actionInfo.receiverName, uuid, actionInfo.charaType, charaName, env.chara, false, 0⟩
          { m with charaData.state := m.charaData.state.setRecord actionId charaInfo }
        pure true
  else pure false

/-- Source: `charaManager/manager.go`, `Manager.releasseActionInfo`. -/
def releasseActionInfo (actionId : ℕ) : Op Unit := do
  onCharaData (CharaDataManager.releasseActionId actionId)
  Locking.modify fun m => { m with codeChanMap := m.codeChanMap.erase actionId }

/-- The rest of an enrolment, once the driver is told to start. Where the driver fails, the channel
stays in its map. Source: `charaManager/manager_ifc.go`, `Manager.EnrollStart`. -/
def enrollDriver (env : CallAnswers) (service : String) (charaType : CharaType) (charaName : String)
    (actionId : ℕ) : Op (Option ℕ) := do
  tell (.enrollStart service env.chara charaType actionId env.enrollStart.isSome)
  match env.enrollStart with
  | none => do
      onCharaData (CharaDataManager.releasseActionId actionId)
      pure none
  | some uniFd => do
      if ← saveCharaInfoToActionInfo env actionId charaName then do
        Locking.modify fun m => { m with listeners := actionId :: m.listeners }
        pure (some uniFd)
      else do
        tell (.enrollStop service actionId)
        releasseActionInfo actionId
        pure none

/-- The rest of an enrolment, once the driver is found.
Source: `charaManager/manager_ifc.go`, `Manager.EnrollStart`. -/
def enrollAction (env : CallAnswers) (sender driverName service : String) (charaType : CharaType)
    (charaName : String) : Op (Option ℕ) := do
  match ← onCharaData (CharaDataManager.genActionId sender driverName env.unionName .enroll
    charaType) with
  | none => pure none
  | some actionId => do
      Locking.modify fun m => { m with codeChanMap := m.codeChanMap.insert actionId actionId }
      enrollDriver env service charaType charaName actionId

/-- The file of the driver, or none for an error; the texts of the errors are left out.
Source: `charaManager/manager_ifc.go`, `Manager.EnrollStart`. -/
def enrollStart (env : CallAnswers) (sender driverName : String) (charaType : CharaType)
    (charaName : String) : Op (Option ℕ) :=
  match getCheckPasswdActionId .enroll charaType with
  | none => pure none
  | some passwdCheckActionId =>
      if env.checkAuth passwdCheckActionId = true then do
        if ← onCharaData (CharaDataManager.checkErollAvaliable env.toDriverAnswers sender env.uuid
            charaType charaName) then
          match ← onCharaData (CharaDataManager.getDriver env.toDriverAnswers driverName charaType)
            with
          | (some driver, false) =>
              enrollAction env sender driverName driver.service charaType charaName
          | _ => pure none
        else pure none
      else pure none

/-- Whether the call goes well; the texts of the errors are left out.
Source: `charaManager/manager_ifc.go`, `Manager.Delete`. -/
def delete (env : CallAnswers) (charaType : CharaType) (charaName : String) : Op Bool :=
  match getCheckPasswdActionId .delete charaType with
  | none => pure false
  | some passwdCheckActionId =>
      if env.checkAuth passwdCheckActionId = true then do
        let m ← Locking.get
        match m.charaData.getCharaInfo env.order env.uuid charaType charaName with
        | none => pure false
        | some charaInfo =>
            match ← onCharaData (CharaDataManager.getDriver env.toDriverAnswers
              (m.charaData.state.records.heap charaInfo).serverName charaType) with
            | (some driver, false) => do
                let m ← Locking.get
                let info := m.charaData.state.records.heap charaInfo
                tell (.delete driver.service info.chara)
                if env.delete then do
                  onCharaData (CharaDataManager.change .charaInfoMtx fun m =>
                    m.setRecords fun records =>
                      records.deleteChara env.deleteOrder info.uuid info.charaType info.charaName)
                  pure true
                else pure false
            | _ => pure false
      else pure false

/-! ## An enrolment that fails -/

section enroll

variable {m m' : Manager} {env : CallAnswers} {held : Held Mutex}
  {sender driverName charaName service : String} {charaType : CharaType} {actionId : ℕ}

/-- An operation on the records and the actions has the result that it has on its own. -/
theorem onCharaData_of_eq {α : Type} {p : CharaDataManager.Op α} {a : α} {c : CharaDataManager}
    (h : p held m.charaData = .ok (a, c)) :
    onCharaData p held m = .ok (a, { m with charaData := c }) := by
  unfold onCharaData
  rw [h]

theorem tell_eq {call : DriverCall} :
    tell call held m = .ok ((), { m with told := m.told ++ [call] }) := rfl

/-- The client may enrol: it gives the password, and does not enrol already, and the name is not
taken. -/
structure Admitted (m : Manager) (env : CallAnswers) (sender : String) (charaType : CharaType)
    (charaName : String) : Prop where
  auth : ∃ passwdCheckActionId,
    getCheckPasswdActionId .enroll charaType = some passwdCheckActionId ∧
      env.checkAuth passwdCheckActionId = true
  available : m.charaData.state.checkErollAvaliable sender charaType charaName env.answers = true

/-- An enrolment is told to its driver: the client may enrol, the driver is found and not claimed,
the client has no action of the type, and the name of the driver has an owner. -/
structure ReachesDriver (m : Manager) (env : CallAnswers) (sender driverName : String)
    (charaType : CharaType) (charaName : String) : Prop where
  admitted : m.Admitted env sender charaType charaName
  driver : ∃ driver, m.charaData.foundDriver env.toDriverAnswers driverName charaType =
    (some driver, false)
  action : m.charaData.state.actionMap.lookup (sender, charaType) = none
  unionName : env.unionName.isSome = true

/-- Nothing but which records are available has changed. -/
structure Untouched (m m' : Manager) : Prop where
  charaData : m.charaData.UpToAvailability m'.charaData
  codeChanMap : m'.codeChanMap = m.codeChanMap
  listeners : m'.listeners = m.listeners
  told : m'.told = m.told

theorem Untouched.refl (m : Manager) : Untouched m m := ⟨.refl _, rfl, rfl, rfl⟩

/-- A new action and its channel, and nothing else but which records are available: the action
stands under its caller and type, its number is the next one, and its channel is registered for its
codes. -/
structure Generated (m m' : Manager) (sender : String) (charaType : CharaType) : Prop where
  actions : ∀ a, a ≠ m.charaData.state.refs →
    m'.charaData.state.actions a = m.charaData.state.actions a
  actionMap : m'.charaData.state.actionMap =
    m.charaData.state.actionMap.insert (sender, charaType) m.charaData.state.refs
  refs : m'.charaData.state.refs = m.charaData.state.refs + 1
  codeChanMap : m'.codeChanMap =
    m.codeChanMap.insert m.charaData.state.refs m.charaData.state.refs
  listeners : m'.listeners = m.listeners
  told : m'.told = m.told

/-- An action is made where the client has none of the type and the name of the driver has an
owner. -/
theorem enrollAction_none
    (h : ¬ (m.charaData.state.actionMap.lookup (sender, charaType) = none ∧
      env.unionName.isSome = true)) :
    enrollAction env sender driverName service charaType charaName [] m = .ok (none, m) := by
  have hgen : CharaDataManager.genActionId sender driverName env.unionName .enroll charaType []
      m.charaData = .ok (none, m.charaData) := by
    have hnone : m.charaData.state.genActionId sender driverName env.unionName .enroll charaType =
        none := by
      unfold State.genActionId
      by_cases hkey : (m.charaData.state.actionMap.lookup (sender, charaType)).isSome = true
      · rw [if_pos hkey]
      · rw [if_neg hkey, Option.map_eq_none_iff]
        rw [Option.isSome_iff_ne_none, not_not] at hkey
        exact Option.not_isSome_iff_eq_none.mp fun hsome => h ⟨hkey, hsome⟩
    show (match m.charaData.state.genActionId sender driverName env.unionName .enroll charaType with
      | none => pure none
      | some (state, actionId) => _ : CharaDataManager.Op (Option ℕ)) _ _ = _
    rw [hnone]
    rfl
  unfold enrollAction
  rw [Locking.bind_of_eq (onCharaData_of_eq hgen)]
  rfl

theorem enrollAction_some
    (hkey : m.charaData.state.actionMap.lookup (sender, charaType) = none)
    (hunion : env.unionName.isSome = true) :
    ∃ m', m.Generated m' sender charaType ∧
      enrollAction env sender driverName service charaType charaName [] m =
        enrollDriver env service charaType charaName m.charaData.state.refs [] m' := by
  obtain ⟨unionName, hunion⟩ := Option.isSome_iff_exists.mp hunion
  obtain ⟨t, ht, hactions, hmap, hrefs⟩ : ∃ t, m.charaData.state.genActionId sender driverName
      env.unionName .enroll charaType = some (t, m.charaData.state.refs) ∧
      (∀ a, a ≠ m.charaData.state.refs → t.actions a = m.charaData.state.actions a) ∧
      t.actionMap =
        m.charaData.state.actionMap.insert (sender, charaType) m.charaData.state.refs ∧
      t.refs = m.charaData.state.refs + 1 := by
    unfold State.genActionId
    rw [hkey, hunion]
    exact ⟨_, rfl, fun a ha => Function.update_of_ne ha _ _, rfl, rfl⟩
  have hgen : CharaDataManager.genActionId sender driverName env.unionName .enroll charaType []
      m.charaData = .ok (some m.charaData.state.refs, { m.charaData with state := t }) := by
    show (match m.charaData.state.genActionId sender driverName env.unionName .enroll charaType with
      | none => pure none
      | some (state, actionId) => _ : CharaDataManager.Op (Option ℕ)) _ _ = _
    rw [ht]
    rfl
  refine ⟨{ m with
    charaData := { m.charaData with state := t }
    codeChanMap := m.codeChanMap.insert m.charaData.state.refs m.charaData.state.refs },
    ⟨hactions, hmap, hrefs, rfl, rfl, rfl⟩, ?_⟩
  unfold enrollAction
  rw [Locking.bind_of_eq (onCharaData_of_eq hgen)]
  rfl

/-- Up to the driver, an enrolment changes nothing but which records are available. -/
theorem enrollStart_eq :
    (∃ m', enrollStart env sender driverName charaType charaName [] m = .ok (none, m') ∧
      m.Untouched m' ∧ ¬ m.ReachesDriver env sender driverName charaType charaName) ∨
    ∃ m' driver, m.Untouched m' ∧ m.Admitted env sender charaType charaName ∧
      m.charaData.foundDriver env.toDriverAnswers driverName charaType = (some driver, false) ∧
        enrollStart env sender driverName charaType charaName [] m =
          enrollAction env sender driverName driver.service charaType charaName [] m' := by
  unfold enrollStart
  rcases hid : getCheckPasswdActionId .enroll charaType with _ | passwdCheckActionId
  · refine .inl ⟨m, rfl, .refl m, fun h => ?_⟩
    obtain ⟨_, hsome, -⟩ := h.admitted.auth
    rw [hid] at hsome
    cases hsome
  dsimp only
  split_ifs with hauth
  swap
  · refine .inl ⟨m, rfl, .refl m, fun h => hauth ?_⟩
    obtain ⟨_, hsome, hgiven⟩ := h.admitted.auth
    rw [hid] at hsome
    cases hsome
    exact hgiven
  have hcheck : onCharaData (CharaDataManager.checkErollAvaliable env.toDriverAnswers sender
      env.uuid charaType charaName) [] m =
      .ok (m.charaData.state.checkErollAvaliable sender charaType charaName env.answers, m) :=
    onCharaData_of_eq (@CharaDataManager.checkErollAvaliable_eq _ _ _ _ _ env.answers rfl)
  rw [Locking.bind_of_eq hcheck]
  by_cases havailable :
      m.charaData.state.checkErollAvaliable sender charaType charaName env.answers = true
  swap
  · rw [if_neg havailable]
    exact .inl ⟨m, rfl, .refl m, fun h => havailable h.admitted.available⟩
  rw [if_pos havailable]
  obtain ⟨c, hdriver, hsame⟩ :=
    m.charaData.getDriver_eq env.toDriverAnswers driverName charaType
  rw [Locking.bind_of_eq (onCharaData_of_eq hdriver)]
  have huntouched : m.Untouched { m with charaData := c } := ⟨hsame, rfl, rfl, rfl⟩
  rcases hfound : m.charaData.foundDriver env.toDriverAnswers driverName charaType with
    ⟨_ | driver, _ | _⟩
  case some.false =>
    exact .inr ⟨_, driver, huntouched, ⟨⟨_, hid, hauth⟩, havailable⟩, rfl, rfl⟩
  all_goals
    refine .inl ⟨_, rfl, huntouched, fun h => ?_⟩
    obtain ⟨_, hsome⟩ := h.driver
    rw [hfound] at hsome
    cases hsome

/-- What is known of a driver that was told to start an enrolment: it was told to stop it exactly
where it had started. -/
def StoppedIfStarted (calls : List DriverCall) : Prop :=
  ∀ service actionId, .enrollStop service actionId ∈ calls ↔
    ∃ chara charaType, .enrollStart service chara charaType actionId true ∈ calls

/-- Nothing is left of a call: the actions and the channels are as they were, nobody listens that
did not before, and the driver was told to stop what it had started. -/
structure NoTrace (m m' : Manager) : Prop where
  actionMap : m'.charaData.state.actionMap = m.charaData.state.actionMap
  actions : ∀ k a, m.charaData.state.actionMap.lookup k = some a →
    m'.charaData.state.actions a = m.charaData.state.actions a
  codeChanMap : m'.codeChanMap = m.codeChanMap
  listeners : m'.listeners = m.listeners
  told : ∃ calls, m'.told = m.told ++ calls ∧ StoppedIfStarted calls

/-- The numbers of the actions, and those of the registered channels, are of the numbers that were
given out, so that the next action does not meet an old one. -/
structure IdsGiven (m : Manager) : Prop where
  actionMap : ∀ k a, m.charaData.state.actionMap.lookup k = some a → a < m.charaData.state.refs
  codeChanMap : ∀ a, a ∈ m.codeChanMap → a < m.charaData.state.refs

theorem Untouched.noTrace (h : m.Untouched m') : m.NoTrace m' := by
  refine ⟨h.charaData.actionMap, fun _ a _ => congrFun h.charaData.actions a, h.codeChanMap,
    h.listeners, [], by rw [h.told, List.append_nil], fun service actionId => ?_⟩
  exact iff_of_false List.not_mem_nil fun ⟨_, _, hmem⟩ => List.not_mem_nil hmem

theorem Untouched.trans_noTrace {m'' : Manager} (h : m.Untouched m') (h' : m'.NoTrace m'') :
    m.NoTrace m'' := by
  refine ⟨h'.actionMap.trans h.charaData.actionMap, fun k a hk => ?_,
    h'.codeChanMap.trans h.codeChanMap, h'.listeners.trans h.listeners, ?_⟩
  · rw [h'.actions k a (by rw [h.charaData.actionMap]; exact hk), h.charaData.actions]
  · rw [← h.told]
    exact h'.told

theorem IdsGiven.untouched (h : m.IdsGiven) (hsame : m.Untouched m') : m'.IdsGiven := by
  refine ⟨fun k a hk => ?_, fun a ha => ?_⟩
  · rw [hsame.charaData.actionMap] at hk
    rw [hsame.charaData.refs]
    exact h.actionMap k a hk
  · rw [hsame.codeChanMap] at ha
    rw [hsame.charaData.refs]
    exact h.codeChanMap a ha

/-- What becomes of a channel and an action that are released right after they were made. -/
theorem released (hids : m.IdsGiven) {k : String × CharaType}
    (hkey : m.charaData.state.actionMap.lookup k = none) :
    (GoMap.keep (fun _ val => decide (val ≠ m.charaData.state.refs))
      (m.charaData.state.actionMap.insert k m.charaData.state.refs)) =
        m.charaData.state.actionMap ∧
      m.charaData.state.refs ∉ m.codeChanMap := by
  constructor
  · apply GoMap.keep_insert_of_notMem (AList.lookup_eq_none.mp hkey)
    · exact decide_eq_false (not_not_intro rfl)
    · exact fun k' a ha => decide_eq_true (hids.actionMap k' a ha).ne
  · exact fun hmem => lt_irrefl _ (hids.codeChanMap _ hmem)

/-- An action that was made is under way. -/
theorem hasAction_generated (hmade : m.Generated m' sender charaType) :
    m'.charaData.state.HasAction m.charaData.state.refs := by
  show (m'.charaData.state.actionMap.entries.any fun e => e.2 = m.charaData.state.refs) = true
  rw [hmade.actionMap, AList.entries_insert, List.any_cons, decide_eq_true rfl, Bool.true_or]

/-- The driver fails to start: the action is released, and the channel is not. -/
theorem enrollDriver_fails (hstart : env.enrollStart = none) :
    enrollDriver env service charaType charaName actionId [] m =
      .ok (none, { m with
        charaData.state := m.charaData.state.releaseActionId actionId
        told := m.told ++ [.enrollStart service env.chara charaType actionId false] }) := by
  unfold enrollDriver
  rw [hstart]
  rfl

/-- The driver starts: where the user is not known any more, it is stopped. -/
theorem enrollDriver_starts {uniFd : ℕ} (hstart : env.enrollStart = some uniFd)
    (haction : m.charaData.state.HasAction actionId) :
    (∃ m', enrollDriver env service charaType charaName actionId [] m = .ok (some uniFd, m') ∧
      m'.charaData.state.actionMap = m.charaData.state.actionMap ∧
        m'.charaData.state.refs = m.charaData.state.refs ∧ m'.codeChanMap = m.codeChanMap) ∨
    enrollDriver env service charaType charaName actionId [] m =
      .ok (none, { m with
        charaData.state := m.charaData.state.releaseActionId actionId
        codeChanMap := m.codeChanMap.erase actionId
        told := m.told ++ [.enrollStart service env.chara charaType actionId true] ++
          [.enrollStop service actionId] }) := by
  have htell :
      tell (.enrollStart service env.chara charaType actionId env.enrollStart.isSome) [] m =
        .ok ((), { m with
        told := m.told ++ [.enrollStart service env.chara charaType actionId true] }) := by
    rw [hstart]
    rfl
  have hget : onCharaData (CharaDataManager.getActionInfo actionId) [] { m with
      told := m.told ++ [.enrollStart service env.chara charaType actionId true] } =
        .ok (true, { m with
          told := m.told ++ [.enrollStart service env.chara charaType actionId true] }) := by
    apply onCharaData_of_eq
    show Except.ok (decide (m.charaData.state.HasAction actionId), m.charaData) = _
    rw [decide_eq_true haction]
  unfold enrollDriver
  rw [Locking.bind_of_eq htell, hstart]
  unfold saveCharaInfoToActionInfo
  rcases huser : env.uuidAgain with _ | uuid
  · right
    show ((_ >>= fun saved => _) >>= fun saved => _ : Op (Option ℕ)) [] _ = _
    rw [Locking.bind_of_eq (Locking.bind_of_eq hget)]
    rfl
  · left
    show ∃ m', ((_ >>= fun saved => _) >>= fun saved => _ : Op (Option ℕ)) [] _ = _ ∧ _
    rw [Locking.bind_of_eq (Locking.bind_of_eq hget)]
    exact ⟨_, rfl, rfl, rfl, rfl⟩

/-- A new action has a number that was not given out before. -/
theorem IdsGiven.generated (h : m.IdsGiven) (hmade : m.Generated m' sender charaType) :
    m'.IdsGiven := by
  constructor
  · intro k a hk
    rw [hmade.refs]
    rw [hmade.actionMap] at hk
    by_cases hkey : k = (sender, charaType)
    · rw [hkey, AList.lookup_insert, Option.some.injEq] at hk
      omega
    · rw [AList.lookup_insert_ne hkey] at hk
      exact (h.actionMap k a hk).trans (Nat.lt_succ_self _)
  · intro a ha
    rw [hmade.refs]
    rw [hmade.codeChanMap] at ha
    rcases (AList.mem_insert _).mp ha with rfl | ha
    · exact Nat.lt_succ_self _
    · exact (h.codeChanMap a ha).trans (Nat.lt_succ_self _)

/-- Actions and channels that go. -/
theorem IdsGiven.mono (h : m.IdsGiven)
    (hrefs : m'.charaData.state.refs = m.charaData.state.refs)
    (hmap : ∀ k a, m'.charaData.state.actionMap.lookup k = some a →
      m.charaData.state.actionMap.lookup k = some a)
    (hchan : ∀ a, a ∈ m'.codeChanMap → a ∈ m.codeChanMap) : m'.IdsGiven := by
  constructor
  · intro k a hk
    rw [hrefs]
    exact h.actionMap k a (hmap k a hk)
  · intro a ha
    rw [hrefs]
    exact h.codeChanMap a (hchan a ha)

/-- How a call ends: it does not come to the driver; the driver does not start; it starts; or it
starts and is stopped, as the user is not known any more. Looking for the driver leaves `m₁`, and
`m₂` has the new action and its channel. -/
inductive EnrollEnds (m : Manager) (env : CallAnswers) (sender driverName : String)
    (charaType : CharaType) (charaName : String) : Option ℕ → Manager → Prop where
  | early {m₁ : Manager} (hsame : m.Untouched m₁)
      (hreaches : ¬ m.ReachesDriver env sender driverName charaType charaName) :
      EnrollEnds m env sender driverName charaType charaName none m₁
  | fails {m₁ m₂ : Manager} (service : String) (hsame : m.Untouched m₁)
      (hmade : m₁.Generated m₂ sender charaType)
      (hreaches : m.ReachesDriver env sender driverName charaType charaName)
      (hstart : env.enrollStart = none) :
      EnrollEnds m env sender driverName charaType charaName none { m₂ with
        charaData.state := m₂.charaData.state.releaseActionId m₁.charaData.state.refs
        told := m₂.told ++
          [.enrollStart service env.chara charaType m₁.charaData.state.refs false] }
  | starts {m₁ m₂ m₃ : Manager} {uniFd : ℕ} (hsame : m.Untouched m₁)
      (hmade : m₁.Generated m₂ sender charaType) (hstart : env.enrollStart = some uniFd)
      (hmap : m₃.charaData.state.actionMap = m₂.charaData.state.actionMap)
      (hrefs : m₃.charaData.state.refs = m₂.charaData.state.refs)
      (hchan : m₃.codeChanMap = m₂.codeChanMap) :
      EnrollEnds m env sender driverName charaType charaName (some uniFd) m₃
  | stopped {m₁ m₂ : Manager} {uniFd : ℕ} (service : String) (hsame : m.Untouched m₁)
      (hmade : m₁.Generated m₂ sender charaType)
      (hreaches : m.ReachesDriver env sender driverName charaType charaName)
      (hstart : env.enrollStart = some uniFd) :
      EnrollEnds m env sender driverName charaType charaName none { m₂ with
        charaData.state := m₂.charaData.state.releaseActionId m₁.charaData.state.refs
        codeChanMap := m₂.codeChanMap.erase m₁.charaData.state.refs
        told := m₂.told ++
            [.enrollStart service env.chara charaType m₁.charaData.state.refs true] ++
          [.enrollStop service m₁.charaData.state.refs] }

/-- **Every call** ends in one of these ways. -/
theorem enrollStart_ends (m : Manager) (env : CallAnswers) (sender driverName : String)
    (charaType : CharaType) (charaName : String) :
    ∃ r m', enrollStart env sender driverName charaType charaName [] m = .ok (r, m') ∧
      m.EnrollEnds env sender driverName charaType charaName r m' := by
  rcases @enrollStart_eq m env sender driverName charaName charaType with
    ⟨m₁, hrun, hsame, hreaches⟩ | ⟨m₁, driver, hsame, hadmitted, hfound, hrun⟩
  · exact ⟨none, m₁, hrun, .early hsame hreaches⟩
  rw [hrun]
  by_cases hgen : m₁.charaData.state.actionMap.lookup (sender, charaType) = none ∧
      env.unionName.isSome = true
  swap
  · refine ⟨none, m₁, enrollAction_none hgen, .early hsame fun h => hgen ?_⟩
    rw [hsame.charaData.actionMap]
    exact ⟨h.action, h.unionName⟩
  have hreaches : m.ReachesDriver env sender driverName charaType charaName := by
    refine ⟨hadmitted, ⟨driver, hfound⟩, ?_, hgen.2⟩
    rw [← hsame.charaData.actionMap]
    exact hgen.1
  obtain ⟨m₂, hmade, hrun₂⟩ := @enrollAction_some _ _ _ driverName charaName driver.service _ hgen.1
    hgen.2
  rw [hrun₂]
  rcases hstart : env.enrollStart with _ | uniFd
  · exact ⟨none, _, enrollDriver_fails hstart, .fails driver.service hsame hmade hreaches hstart⟩
  · have haction : m₂.charaData.state.HasAction m₁.charaData.state.refs := hasAction_generated hmade
    rcases @enrollDriver_starts _ _ charaName driver.service charaType _ _ hstart
      haction with ⟨m₃, hok, hmap, hrefs, hchan⟩ | hstopped
    · exact ⟨some uniFd, m₃, hok, .starts hsame hmade hstart hmap hrefs hchan⟩
    · exact ⟨none, _, hstopped, .stopped driver.service hsame hmade hreaches hstart⟩

/-- The actions that are left when one is released. -/
theorem lookup_released {actionMap : GoMap (String × CharaType) ℕ} {actionId a : ℕ}
    {k : String × CharaType}
    (hk : (GoMap.keep (fun _ val => decide (val ≠ actionId)) actionMap).lookup k = some a) :
    actionMap.lookup k = some a :=
  (GoMap.lookup_keep_eq_some.mp hk).1

/-- The numbers stay given out, however an enrolment ends. -/
theorem IdsGiven.enrollStart {r : Option ℕ} (h : m.IdsGiven)
    (hrun : enrollStart env sender driverName charaType charaName [] m = .ok (r, m')) :
    m'.IdsGiven := by
  obtain ⟨r', m'', hrun', hends⟩ := m.enrollStart_ends env sender driverName charaType charaName
  cases hrun'.symm.trans hrun
  cases hends with
  | early hsame hreaches => exact h.untouched hsame
  | fails service hsame hmade hreaches hstart =>
      exact ((h.untouched hsame).generated hmade).mono rfl (fun _ _ hk => lookup_released hk)
        fun _ ha => ha
  | starts hsame hmade hstart hmap hrefs hchan =>
      exact ((h.untouched hsame).generated hmade).mono hrefs (fun k a hk => hmap ▸ hk)
        fun a ha => hchan ▸ ha
  | stopped service hsame hmade hreaches hstart =>
      exact ((h.untouched hsame).generated hmade).mono rfl (fun _ _ hk => lookup_released hk)
        fun a ha => (AList.mem_erase.mp ha).2

/-- A driver that was told to start, and to stop. -/
theorem stoppedIfStarted_pair (service chara : String) (charaType : CharaType) (actionId : ℕ) :
    StoppedIfStarted [.enrollStart service chara charaType actionId true,
      .enrollStop service actionId] := by
  intro service' actionId'
  constructor
  · intro hmem
    rcases List.mem_cons.mp hmem with heq | hmem
    · cases heq
    · cases List.mem_singleton.mp hmem
      exact ⟨chara, charaType, List.mem_cons_self ..⟩
  · rintro ⟨chara', charaType', hmem⟩
    rcases List.mem_cons.mp hmem with heq | hmem
    · cases heq
      exact List.mem_cons_of_mem _ (List.mem_singleton_self _)
    · cases List.mem_singleton.mp hmem

/-- **An enrolment that fails leaves no trace** exactly where it is not the driver that fails: the
channel of an enrolment that the driver does not start is never deleted. -/
theorem enrollStart_no_trace_iff (m : Manager) (env : CallAnswers) (sender driverName : String)
    (charaType : CharaType) (charaName : String) (hids : m.IdsGiven) :
    (∀ m', enrollStart env sender driverName charaType charaName [] m = .ok (none, m') →
      m.NoTrace m') ↔
      ¬ (m.ReachesDriver env sender driverName charaType charaName ∧ env.enrollStart = none) := by
  obtain ⟨r, m', hrun, hends⟩ := m.enrollStart_ends env sender driverName charaType charaName
  rw [hrun]
  cases hends with
  | early hsame hreaches =>
      refine iff_of_true (fun m'' h => ?_) fun h => hreaches h.1
      cases h
      exact hsame.noTrace
  | @fails m₁ m₂ service hsame hmade hreaches hstart =>
      -- the channel is left
      refine iff_of_false (fun hall => ?_) (not_not_intro ⟨hreaches, hstart⟩)
      have hchan : m₂.codeChanMap = m.codeChanMap := (hall _ rfl).codeChanMap
      rw [hmade.codeChanMap, ← hsame.codeChanMap] at hchan
      refine lt_irrefl m₁.charaData.state.refs ((hids.untouched hsame).codeChanMap _ ?_)
      rw [← hchan]
      exact (AList.mem_insert _).mpr (.inl rfl)
  | starts hsame hmade hstart hmap hrefs hchan =>
      refine iff_of_true (fun m'' h => by cases h) fun h => ?_
      cases hstart.symm.trans h.2
  | @stopped m₁ m₂ uniFd service hsame hmade hreaches hstart =>
      -- the action and the channel are released
      refine iff_of_true (fun m'' h => ?_) fun h => by cases hstart.symm.trans h.2
      cases h
      have hkey : m₁.charaData.state.actionMap.lookup (sender, charaType) = none := by
        rw [hsame.charaData.actionMap]
        exact hreaches.action
      obtain ⟨hreleased, hnew⟩ := released (hids.untouched hsame) hkey
      refine hsame.trans_noTrace ⟨?_, fun k a hk => ?_, ?_, hmade.listeners, _, ?_,
        stoppedIfStarted_pair service env.chara charaType m₁.charaData.state.refs⟩
      · show GoMap.keep (fun _ val => decide (val ≠ m₁.charaData.state.refs))
          m₂.charaData.state.actionMap = _
        rw [hmade.actionMap]
        exact hreleased
      · exact hmade.actions a ((hids.untouched hsame).actionMap k a hk).ne
      · show m₂.codeChanMap.erase _ = _
        rw [hmade.codeChanMap]
        exact GoMap.erase_insert_of_notMem _ hnew
      · show m₂.told ++ _ ++ _ = _
        rw [hmade.told, List.append_assoc]
        rfl

end enroll

/-- A manager with a driver of faces. -/
def withFaces : Manager := ⟨.withDriver ⟨"com.lingmo.face", 4, ":1.9"⟩, ∅, [], []⟩

theorem idsGiven_withFaces : withFaces.IdsGiven :=
  ⟨fun _ _ hk => (by cases hk), fun _ ha => absurd ha (AList.notMem_empty _)⟩

/-- All is well, except that the driver does not start, or delete. -/
def driverFails : CallAnswers where
  claim _ := some false
  charaType _ := some 4
  list _ := some []
  order := .listed _ _
  servers := .listed _ _
  checkAuth _ := true
  uuid := some "1000"
  uuidAgain := some "1000"
  chara := "c1"
  unionName := some ":1.9"
  enrollStart := none
  delete := false
  deleteOrder := .listed _ _

/-- A client enrols, with the file 7 of the driver. When the driver has left the bus the next client
is refused without a trace; and where the driver does not start, exactly what is told to it leaves
one. -/
theorem enrollStart_no_trace_driverFails : ∃ m₁,
    enrollStart { driverFails with enrollStart := some 7 } ":1.1" "com.lingmo.face" 4 "me" []
        withFaces = .ok (some 7, m₁) ∧
      m₁.charaData.state.actionMap.lookup (":1.1", 4) = some 0 ∧
      (∃ m', enrollStart { driverFails with unionName := none } ":1.2" "com.lingmo.face" 4 "you" []
          m₁ = .ok (none, m') ∧ m₁.NoTrace m') ∧
      ((∀ m', enrollStart driverFails ":1.2" "com.lingmo.face" 4 "you" [] m₁ = .ok (none, m') →
          m₁.NoTrace m') ↔
        ¬ (m₁.ReachesDriver driverFails ":1.2" "com.lingmo.face" 4 "you" ∧
          driverFails.enrollStart = none)) := by
  obtain ⟨m₁, hr, hmap, hfails⟩ : ∃ m₁,
      enrollStart { driverFails with enrollStart := some 7 } ":1.1" "com.lingmo.face" 4 "me" []
          withFaces = .ok (some 7, m₁) ∧
        m₁.charaData.state.actionMap.lookup (":1.1", 4) = some 0 ∧
        ∃ m', enrollStart { driverFails with unionName := none } ":1.2" "com.lingmo.face" 4 "you" []
          m₁ = .ok (none, m') :=
    ⟨_, rfl, rfl, _, rfl⟩
  have hids : m₁.IdsGiven := idsGiven_withFaces.enrollStart hr
  obtain ⟨m', hm'⟩ := hfails
  refine ⟨m₁, hr, hmap, ⟨m', hm', ?_⟩, enrollStart_no_trace_iff m₁ _ _ _ _ _ hids⟩
  refine (enrollStart_no_trace_iff m₁ _ _ _ _ _ hids).mpr ?_ m' hm'
  rintro ⟨hreaches, -⟩
  cases hreaches.unionName

/-- Its channel is left. -/
theorem enrollStart_leaves_channel :
    ¬ ∀ (m : Manager) (env : CallAnswers) (sender driverName : String) (charaType : CharaType)
      (charaName : String), m.IdsGiven →
        ∀ m', enrollStart env sender driverName charaType charaName [] m = .ok (none, m') →
          m.NoTrace m' := by
  intro hall
  have h := hall withFaces driverFails ":1.1" "com.lingmo.face" 4 "me" idsGiven_withFaces _ rfl
  exact absurd (congrArg (AList.lookup 0) h.codeChanMap) (by decide)

/-! ## A record that is deleted -/

section delete

variable {m m' : Manager} {env : CallAnswers} {charaType : CharaType} {charaName : String}
  {charaInfo : ℕ}

/-- A driver is found under the name of its service. -/
theorem service_of_foundDriver {c : CharaDataManager} {answers : DriverAnswers}
    {serverName : String} {driver : CommonDriver} {claim : Bool}
    (h : c.foundDriver answers serverName charaType = (some driver, claim)) :
    driver.service = serverName := by
  unfold CharaDataManager.foundDriver at h
  rcases hdriver : c.serverMap.lookup serverName with _ | driver'
  · rw [hdriver] at h
    cases h
  rw [hdriver] at h
  rcases htype : answers.charaType serverName with _ | tempCharaType
  · rw [htype] at h
    cases h
  rw [htype] at h
  dsimp only at h
  split_ifs at h
  · cases h
    exact c.service_eq serverName driver' hdriver
  · cases h

/-- The record that is found is in the map, and of the user, type and name. -/
theorem getCharaInfo_some {c : CharaDataManager} {order : Order} {uuid : Option String}
    (h : c.getCharaInfo order uuid charaType charaName = some charaInfo) :
    ∃ u k, uuid = some u ∧ c.state.records.charaInfoMap.lookup k = some charaInfo ∧
      Called u charaType charaName (c.state.records.heap charaInfo) := by
  rcases uuid with _ | u
  · cases h
  obtain ⟨e, he, rfl⟩ := Option.map_eq_some_iff.mp h
  exact ⟨u, e.1, rfl, (order.ranges _).mem_iff.mp (List.mem_of_find?_eq_some he),
    by simpa using List.find?_some he⟩

/-- Which records are available has nothing to do with which one is found. -/
theorem getCharaInfo_upToAvailability {c c' : CharaDataManager} (h : c.UpToAvailability c')
    (order : Order) (uuid : Option String) :
    c'.getCharaInfo order uuid charaType charaName =
      c.getCharaInfo order uuid charaType charaName := by
  rcases uuid with _ | u
  · rfl
  unfold CharaDataManager.getCharaInfo
  have hcalled : (fun e : Σ _ : String, ℕ =>
      decide (Called u charaType charaName (c'.state.records.heap e.2))) =
      fun e => decide (Called u charaType charaName (c.state.records.heap e.2)) := by
    funext e
    obtain ⟨b, hb⟩ := h.heap e.2
    rw [hb]
    rfl
  dsimp only
  rw [h.charaInfoMap, hcalled]

/-- Where a record is found, another loop finds one too. -/
theorem exists_getCharaInfo {c : CharaDataManager} {order : Order} {uuid : Option String}
    (h : c.getCharaInfo order uuid charaType charaName = some charaInfo) (order' : Order) :
    ∃ again, c.getCharaInfo order' uuid charaType charaName = some again := by
  obtain ⟨u, k, rfl, hk, hcalled⟩ := getCharaInfo_some h
  apply Option.isSome_iff_exists.mp
  show ((List.find? _ _).map _).isSome = true
  rw [Option.isSome_map, List.find?_isSome]
  exact ⟨⟨k, charaInfo⟩, (order'.ranges _).mem_iff.mpr hk, decide_eq_true hcalled⟩

/-- What is deleted from the map is what is under the key of the record that is found. -/
theorem charaInfoMap_deleteChara {c : CharaDataManager} {order : Order} {u : String}
    (h : c.getCharaInfo order (some u) charaType charaName = some charaInfo) :
    (c.state.records.deleteChara order u charaType charaName).charaInfoMap =
      c.state.records.charaInfoMap.erase (c.state.records.heap charaInfo).chara := by
  obtain ⟨e, he, rfl⟩ := Option.map_eq_some_iff.mp h
  unfold Records.deleteChara
  dsimp only
  have hfind : ((order.visit c.state.records.charaInfoMap).find? fun e =>
      (c.state.records.heap e.2).uuid = u ∧ (c.state.records.heap e.2).charaType = charaType ∧
        (c.state.records.heap e.2).charaName = charaName) = some e := he
  rw [hfind]
  rfl

/-- A deletion goes well: the password is given, a record is found, its driver is found and not
claimed, and it deletes. -/
structure Deletes (m : Manager) (env : CallAnswers) (charaType : CharaType) (charaName : String)
    (charaInfo : ℕ) : Prop where
  auth : ∃ passwdCheckActionId,
    getCheckPasswdActionId .delete charaType = some passwdCheckActionId ∧
      env.checkAuth passwdCheckActionId = true
  found : m.charaData.getCharaInfo env.order env.uuid charaType charaName = some charaInfo
  driver : ∃ driver, m.charaData.foundDriver env.toDriverAnswers
    (m.charaData.state.records.heap charaInfo).serverName charaType = (some driver, false)
  ok : env.delete = true

/-- The driver of a record was told to delete it, and what is under a key was deleted from the
map. -/
structure Deleted (m m' : Manager) (charaInfo : ℕ) (key : String) : Prop where
  told : m'.told = m.told ++ [.delete (m.charaData.state.records.heap charaInfo).serverName
    (m.charaData.state.records.heap charaInfo).chara]
  charaInfoMap : m'.charaData.state.records.charaInfoMap =
    m.charaData.state.records.charaInfoMap.erase key

/-- The same for the name of a record that was found before, on records of which others are
available by now. -/
theorem charaInfoMap_deleteChara_again {c c' : CharaDataManager} {order order' : Order}
    {uuid : Option String} {again : ℕ} (hsame : c.UpToAvailability c')
    (hfound : c.getCharaInfo order uuid charaType charaName = some charaInfo)
    (hagain : c.getCharaInfo order' uuid charaType charaName = some again) :
    (c'.state.records.deleteChara order' (c'.state.records.heap charaInfo).uuid
        (c'.state.records.heap charaInfo).charaType
        (c'.state.records.heap charaInfo).charaName).charaInfoMap =
      c.state.records.charaInfoMap.erase (c.state.records.heap again).chara := by
  obtain ⟨u, k, hu, -, hcalled⟩ := getCharaInfo_some hfound
  obtain ⟨b, hb⟩ := hsame.heap charaInfo
  obtain ⟨b', hb'⟩ := hsame.heap again
  rw [← getCharaInfo_upToAvailability hsame, hu] at hagain
  rw [hb]
  dsimp only
  rw [hcalled.1, hcalled.2.1, hcalled.2.2, charaInfoMap_deleteChara hagain, hb',
    hsame.charaInfoMap]

/-- **A deletion** tells the driver of the record that is found first, and deletes what is under the
key of the record that is found again. -/
theorem delete_eq :
    (∃ m', delete env charaType charaName [] m = .ok (false, m') ∧
      ∀ charaInfo, ¬ m.Deletes env charaType charaName charaInfo) ∨
    ∃ m' charaInfo again, delete env charaType charaName [] m = .ok (true, m') ∧
      m.Deletes env charaType charaName charaInfo ∧
        m.charaData.getCharaInfo env.deleteOrder env.uuid charaType charaName = some again ∧
          m.Deleted m' charaInfo (m.charaData.state.records.heap again).chara := by
  unfold delete
  rcases hid : getCheckPasswdActionId .delete charaType with _ | passwdCheckActionId
  · refine .inl ⟨m, rfl, fun charaInfo h => ?_⟩
    obtain ⟨_, hsome, -⟩ := h.auth
    rw [hid] at hsome
    cases hsome
  dsimp only
  by_cases hauth : env.checkAuth passwdCheckActionId = true
  swap
  · rw [if_neg hauth]
    refine .inl ⟨m, rfl, fun charaInfo h => hauth ?_⟩
    obtain ⟨_, hsome, hgiven⟩ := h.auth
    rw [hid] at hsome
    cases hsome
    exact hgiven
  rw [if_pos hauth, Locking.get_bind]
  rcases hfound : m.charaData.getCharaInfo env.order env.uuid charaType charaName with _ | charaInfo
  · refine .inl ⟨m, rfl, fun charaInfo h => ?_⟩
    have hsome := h.found
    rw [hfound] at hsome
    cases hsome
  dsimp only
  obtain ⟨c, hdriver, hsame⟩ := m.charaData.getDriver_eq env.toDriverAnswers
    (m.charaData.state.records.heap charaInfo).serverName charaType
  rw [Locking.bind_of_eq (onCharaData_of_eq (m := m) hdriver)]
  rcases hdriver' : m.charaData.foundDriver env.toDriverAnswers
    (m.charaData.state.records.heap charaInfo).serverName charaType with ⟨_ | driver, _ | _⟩
  case some.false =>
    have hservice := service_of_foundDriver hdriver'
    obtain ⟨b, hb⟩ := hsame.heap charaInfo
    by_cases hok : env.delete = true
    swap
    · refine .inl ⟨{ m with
        charaData := c
        told := m.told ++ [.delete driver.service (c.state.records.heap charaInfo).chara] }, ?_,
        fun charaInfo h => hok h.ok⟩
      dsimp only
      rw [Locking.get_bind, Locking.bind_of_eq tell_eq, if_neg hok]
      rfl
    obtain ⟨again, hagain⟩ := exists_getCharaInfo hfound env.deleteOrder
    refine .inr ⟨{ m with
      charaData := c.setRecords fun records =>
        records.deleteChara env.deleteOrder (c.state.records.heap charaInfo).uuid
          (c.state.records.heap charaInfo).charaType (c.state.records.heap charaInfo).charaName
      told := m.told ++ [.delete driver.service (c.state.records.heap charaInfo).chara] },
      charaInfo, again, ?_, ⟨⟨_, hid, hauth⟩, hfound, ⟨driver, hdriver'⟩, hok⟩,
      hagain, ?_, charaInfoMap_deleteChara_again hsame hfound hagain⟩
    · dsimp only
      rw [Locking.get_bind, Locking.bind_of_eq tell_eq, if_pos hok]
      rfl
    · show m.told ++ [.delete driver.service (c.state.records.heap charaInfo).chara] = _
      rw [hservice, hb]
  all_goals
    refine .inl ⟨_, rfl, fun charaInfo' h => ?_⟩
    obtain ⟨_, hsome⟩ := h.driver
    have heq := h.found
    rw [hfound, Option.some.injEq] at heq
    rw [← heq, hdriver'] at hsome
    cases hsome

/-- Some record of the name is available. -/
def AvailableOfName (m : Manager) (env : CallAnswers) (charaType : CharaType)
    (charaName : String) : Prop :=
  ∃ u k p, env.uuid = some u ∧ m.charaData.state.records.charaInfoMap.lookup k = some p ∧
    Named u charaType charaName (m.charaData.state.records.heap p)

/-- Exactly the record is deleted from the map whose key its driver was told to delete, and it was
available if there is one of the name that is. -/
def DeletedOnDevice (m m' : Manager) (env : CallAnswers) (charaType : CharaType)
    (charaName : String) : Prop :=
  ∃ k p, m.charaData.state.records.charaInfoMap.lookup k = some p ∧
    m'.told = m.told ++ [.delete (m.charaData.state.records.heap p).serverName
      (m.charaData.state.records.heap p).chara] ∧
    m'.charaData.state.records.charaInfoMap = m.charaData.state.records.charaInfoMap.erase k ∧
      (m.AvailableOfName env charaType charaName →
        (m.charaData.state.records.heap p).bAvailable = true)

/-- What is under the key of the record that is found again has the key and the driver of the one
that was found, and is available if there is one of the name that is. -/
def FindsSame (m : Manager) (env : CallAnswers) (charaType : CharaType) (charaName : String)
    (charaInfo again : ℕ) : Prop :=
  ∃ p, m.charaData.state.records.charaInfoMap.lookup (m.charaData.state.records.heap again).chara =
      some p ∧
    (m.charaData.state.records.heap p).chara = (m.charaData.state.records.heap charaInfo).chara ∧
    (m.charaData.state.records.heap p).serverName =
      (m.charaData.state.records.heap charaInfo).serverName ∧
      (m.AvailableOfName env charaType charaName →
        (m.charaData.state.records.heap p).bAvailable = true)

/-- Where each record is under its own key, both loops come to one record first, and it is available
if there is one of the name that is. -/
theorem findsSame_iff {again : ℕ}
    (hkeyed : ∀ k p, m.charaData.state.records.charaInfoMap.lookup k = some p →
      (m.charaData.state.records.heap p).chara = k)
    (hfound : m.charaData.getCharaInfo env.order env.uuid charaType charaName = some charaInfo)
    (hagain : m.charaData.getCharaInfo env.deleteOrder env.uuid charaType charaName = some again) :
    m.FindsSame env charaType charaName charaInfo again ↔
      again = charaInfo ∧ (m.AvailableOfName env charaType charaName →
        (m.charaData.state.records.heap charaInfo).bAvailable = true) := by
  obtain ⟨-, k, -, hk, -⟩ := getCharaInfo_some hfound
  obtain ⟨-, k', -, hk', -⟩ := getCharaInfo_some hagain
  have hlookup := hkeyed k' again hk' ▸ hk'
  constructor
  · rintro ⟨p, hp, hchara, -, havailable⟩
    obtain rfl : again = p := Option.some.inj (hlookup.symm.trans hp)
    rw [hchara, hkeyed k charaInfo hk, hk, Option.some.injEq] at hlookup
    subst hlookup
    exact ⟨rfl, havailable⟩
  · rintro ⟨rfl, havailable⟩
    exact ⟨again, hlookup, rfl, rfl, havailable⟩

/-- A deletion, by the record that is found again. -/
theorem deletedOnDevice_iff_findsSame (m : Manager) (env : CallAnswers) (charaType : CharaType)
    (charaName : String) :
    (∀ m', delete env charaType charaName [] m = .ok (true, m') →
      m.DeletedOnDevice m' env charaType charaName) ↔
      ∀ charaInfo again, m.Deletes env charaType charaName charaInfo →
        m.charaData.getCharaInfo env.deleteOrder env.uuid charaType charaName = some again →
          m.FindsSame env charaType charaName charaInfo again := by
  rcases @delete_eq m env charaType charaName with
    ⟨m', hrun, hnot⟩ | ⟨m', charaInfo, again, hrun, hdeletes, hagain, hdeleted⟩
  · refine iff_of_true (fun m'' h => ?_) (fun charaInfo _ h => absurd h (hnot charaInfo))
    rw [hrun] at h
    cases h
  constructor
  · intro h charaInfo' again' hdeletes' hagain'
    obtain rfl : charaInfo' = charaInfo :=
      Option.some.inj (hdeletes'.found.symm.trans hdeletes.found)
    obtain rfl : again' = again := Option.some.inj (hagain'.symm.trans hagain)
    obtain ⟨k, p, hp, htold, hmap, havailable⟩ := h m' hrun
    rw [hdeleted.told, List.append_cancel_left_eq, List.cons.injEq, DriverCall.delete.injEq]
      at htold
    have hkey : k = (m.charaData.state.records.heap again').chara := by
      by_contra hne
      have hgone := congrArg (AList.lookup k) hmap
      rw [hdeleted.charaInfoMap, AList.lookup_erase_ne hne, hp, AList.lookup_erase] at hgone
      cases hgone
    exact ⟨p, hkey ▸ hp, htold.1.2.symm, htold.1.1.symm, havailable⟩
  · intro h m'' hrun'
    obtain ⟨p, hp, hchara, hserver, havailable⟩ := h charaInfo again hdeletes hagain
    rw [hrun] at hrun'
    cases hrun'
    refine ⟨_, p, hp, ?_, hdeleted.charaInfoMap, havailable⟩
    rw [hserver, hchara]
    exact hdeleted.told

/-- **What is deleted is what was deleted on the device** exactly where what is under the key of the
record that is found again is the record that was found, and not one that is not available while
another of the name is. Where each record is under its own key, that is: both loops come to one
record first, and it is available if there is one of the name that is. -/
theorem delete_on_device_iff (m : Manager) (env : CallAnswers) (charaType : CharaType)
    (charaName : String) :
    ((∀ m', delete env charaType charaName [] m = .ok (true, m') →
      m.DeletedOnDevice m' env charaType charaName) ↔
      ∀ charaInfo again, m.Deletes env charaType charaName charaInfo →
        m.charaData.getCharaInfo env.deleteOrder env.uuid charaType charaName = some again →
          m.FindsSame env charaType charaName charaInfo again) ∧
    ((∀ k p, m.charaData.state.records.charaInfoMap.lookup k = some p →
        (m.charaData.state.records.heap p).chara = k) →
      ((∀ m', delete env charaType charaName [] m = .ok (true, m') →
        m.DeletedOnDevice m' env charaType charaName) ↔
        ∀ charaInfo again, m.Deletes env charaType charaName charaInfo →
          m.charaData.getCharaInfo env.deleteOrder env.uuid charaType charaName = some again →
            again = charaInfo ∧ (m.AvailableOfName env charaType charaName →
              (m.charaData.state.records.heap charaInfo).bAvailable = true))) := by
  refine ⟨m.deletedOnDevice_iff_findsSame env charaType charaName, fun hkeyed => ?_⟩
  rw [deletedOnDevice_iff_findsSame]
  refine forall₂_congr fun charaInfo again => forall₂_congr fun hdeletes hagain => ?_
  exact findsSame_iff hkeyed hdeletes.found hagain

end delete

/-- The order of a loop, the other way round. -/
def reversed (K V : Type) : GoMap.RangeOrder K V where
  visit m := m.entries.reverse
  ranges m := List.reverse_perm m.entries

/-- A face that was recorded twice under one name; the first record is not available any more. -/
def recordedTwice : Manager :=
  { withFaces with
    charaData := withFaces.charaData.setRecords fun _ =>
      ⟨fun p => ⟨"com.lingmo.face", "1000", 4, "me", if p = 0 then "c1" else "c2", p = 1, 0⟩,
        (AList.singleton "c2" 1).insert "c1" 0⟩ }

/-- All is well, and the second loop is the other way round. -/
def deletesOther : CallAnswers :=
  { driverFails with
    delete := true
    deleteOrder := reversed _ _ }

/-- The driver deletes the record that is not available, and the other one goes from the map. -/
theorem delete_other_record :
    ¬ ∀ (m : Manager) (env : CallAnswers) (charaType : CharaType) (charaName : String)
      (m' : Manager), delete env charaType charaName [] m = .ok (true, m') →
        m.DeletedOnDevice m' env charaType charaName := by
  intro hall
  obtain ⟨k, p, -, htold, -, havailable⟩ := hall recordedTwice deletesOther 4 "me" _ rfl
  obtain rfl : p = 1 := of_decide_eq_true (havailable ⟨"1000", "c2", 1, rfl, rfl, by decide⟩)
  exact absurd htold (by decide)

end Manager

end LingmoAuthenticate.Chara
