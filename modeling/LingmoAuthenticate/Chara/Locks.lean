import LingmoAuthenticate.Chara.Enroll
import LingmoAuthenticate.Lib.Locking

/-!
# Which mutexes are held: `charaDataManger/manager.go`

The records, the actions and the drivers each have a mutex of their own. An operation locks one or
two of them until it returns. Asking a driver for its types is not harmless: where they have changed
since, the records are matched with what the driver lists, under the mutex of the records.

* `getDriver`, `getDefaultDriver` and the other operations, as computations that lock.
* `safe_handleDriverCharaTypeChange`, `returns_getDriver_iff`: what they need not to be held.
* `returns_iff`: an operation never asks for a mutex that it holds, except that the records of a
  driver are listed when the driver has gained a type.
-/

namespace LingmoAuthenticate.Chara

open Lib

/-! ## The drivers and the mutexes -/

/-- Source: `charaDataManger/common_driver.go`, `CommonDriver`. -/
structure CommonDriver where
  service : String
  driverCharaType : CharaType
  uniqueName : String
  deriving DecidableEq, Repr

/-- The mutexes: of the records, of the actions and of the drivers.
Source: `charaDataManger/manager.go`, `CharaDataManager`. -/
inductive Mutex where
  | charaInfoMtx
  | actionMapMtx
  | serverMtx
  deriving DecidableEq, Repr

/-- The records and the actions, and the drivers, each under the name of its service.
Source: `charaDataManger/manager.go`, `CharaDataManager`. -/
structure CharaDataManager where
  state : State
  serverMap : GoMap String CommonDriver
  service_eq : ∀ name driver, serverMap.lookup name = some driver → driver.service = name

/-- What the drivers answer, by their names, or that they fail: to a claim, to the question for
their types and to that for their list; and the orders in which the loops visit the records and the
drivers. -/
structure DriverAnswers where
  claim : String → Option Bool
  charaType : String → Option CharaType
  list : String → Option (List String)
  order : Order
  servers : GoMap.RangeOrder String CommonDriver

namespace CharaDataManager

/-- The operations on the manager. -/
abbrev Op (α : Type) := Locking Mutex CharaDataManager α

/-- The records are changed. -/
def setRecords (m : CharaDataManager) (f : Records → Records) : CharaDataManager :=
  { m with state.records := f m.state.records }

/-- The types of a driver are remembered. -/
def setDriverCharaType (m : CharaDataManager) (serverName : String) (charaType : CharaType) :
    CharaDataManager :=
  match hdriver : m.serverMap.lookup serverName with
  | none => m
  | some driver => { m with
      serverMap := m.serverMap.insert serverName { driver with driverCharaType := charaType }
      service_eq := by
        intro name driver' h
        by_cases hname : name = serverName
        · subst hname
          rw [AList.lookup_insert, Option.some.injEq] at h
          rw [← h]
          exact m.service_eq name driver hdriver
        · rw [AList.lookup_insert_ne hname] at h
          exact m.service_eq name driver' h }

/-- The types that are new. Source: `charaDataManger/manager.go`, `charaAdd`. -/
def charaAdd (old new : CharaType) : CharaType := (old ||| new) ^^^ old

/-- The types that are gone. Source: `charaDataManger/manager.go`, `charaDelete`. -/
def charaDelete (old new : CharaType) : CharaType := (old &&& new) ^^^ old

/-- An action at the driver is of a type that is gone. -/
def affected (m : CharaDataManager) (driver : CommonDriver) (gone : CharaType) : Bool :=
  m.state.actionMap.entries.any fun e =>
    (m.state.actions e.2).uniqueReceiverName = driver.uniqueName ∧
      (m.state.actions e.2).charaType &&& gone ≠ 0

/-- A mutex is held for the rest of the function, where there is a reason to. -/
def withLockIf {α : Type} (c : Bool) (m : Mutex) (mode : Mode) (p : Op α) : Op α :=
  if c then Locking.withLock m mode p else p

/-- Both mutexes are held until the function returns; that the actions and the service hear of the
change is left out. Source: `charaDataManger/manager.go`,
`CharaDataManager.HandleDriverCharaTypeChange`. -/
def handleDriverCharaTypeChange (env : DriverAnswers) (driver : CommonDriver)
    (old new : CharaType) : Op Unit :=
  withLockIf (charaAdd old new ≠ 0) .charaInfoMtx .write do
    if charaAdd old new ≠ 0 then
      Locking.modify fun m => m.setRecords fun records => records.handleDriverListChange env.order
        driver.service ((env.list driver.service).getD [])
    withLockIf (charaDelete old new ≠ 0) .actionMapMtx .read do
      Locking.modify fun m =>
        if m.affected driver (charaDelete old new) then
          m.setRecords fun records =>
            records.setUnavailable env.order driver.service (charaDelete old new)
        else m

/-- A driver that answers with other types than are known of it has them changed.
Source: `charaDataManger/manager.go`, in `CharaDataManager.GetDriver` and
`CharaDataManager.GetDefaultDriver`. -/
def updateCharaType (env : DriverAnswers) (driver : CommonDriver) (charaType : CharaType) :
    Op Unit :=
  if charaType ≠ driver.driverCharaType then do
    handleDriverCharaTypeChange env driver driver.driverCharaType charaType
    Locking.modify fun m => m.setDriverCharaType driver.service charaType
  else pure ()

/-- Source: `charaDataManger/manager.go`, `CharaDataManager.GetDriver`. -/
def getDriver (env : DriverAnswers) (serverName : String) (charaType : CharaType) :
    Op (Option CommonDriver × Bool) :=
  Locking.withLock .serverMtx .read do
    let m ← Locking.get
    match m.serverMap.lookup serverName, env.charaType serverName with
    | some driver, some tempCharaType =>
        if tempCharaType = 0 then pure (none, false)
        else do
          updateCharaType env driver tempCharaType
          if tempCharaType &&& charaType ≠ 0 then
            pure (some { driver with driverCharaType := tempCharaType },
              (env.claim serverName).getD false)
          else pure (none, false)
    | _, _ => pure (none, false)

/-- The loop over the drivers: the first one that answers well and has the type.
Source: `charaDataManger/manager.go`, `CharaDataManager.GetDefaultDriver`. -/
def defaultDriverLoop (env : DriverAnswers) (charaType : CharaType) :
    List (Σ _ : String, CommonDriver) → Op (Option CommonDriver × Bool)
  | [] => pure (none, false)
  | e :: es =>
      match env.claim e.1, env.charaType e.1 with
      | some claim, some tempCharaType =>
          if tempCharaType = 0 then defaultDriverLoop env charaType es
          else do
            updateCharaType env e.2 tempCharaType
            if tempCharaType &&& charaType ≠ 0 then
              pure (some { e.2 with driverCharaType := tempCharaType }, claim)
            else defaultDriverLoop env charaType es
      | _, _ => defaultDriverLoop env charaType es

/-- No mutex is held here. Source: `charaDataManger/manager.go`,
`CharaDataManager.GetDefaultDriver`. -/
def getDefaultDriver (env : DriverAnswers) (serverName : String) (charaType : CharaType) :
    Op (Option CommonDriver × Bool) := do
  let m ← Locking.get
  if serverName ≠ "" then
    match m.serverMap.lookup serverName, env.charaType serverName with
    | some driver, some tempCharaType =>
        if tempCharaType = 0 then pure (none, false)
        else do
          updateCharaType env driver tempCharaType
          pure (some { driver with driverCharaType := tempCharaType }, false)
    | _, _ => pure (none, false)
  else defaultDriverLoop env charaType (env.servers.visit m.serverMap)

/-- The records of a user that a driver has; the mutex of the records is held while the driver is
looked for. Source: `charaDataManger/manager.go`,
`CharaDataManager.GetAvailableCharaInfoByDriverNameAndType`. -/
def getAvailableCharaInfoByDriverNameAndType (env : DriverAnswers) (uuid : String)
    (charaType : CharaType) (driverName : String) : Op (List CharaInfo) :=
  Locking.withLock .charaInfoMtx .write do
    let r ← getDriver env driverName charaType
    match r.1 with
    | none => pure []
    | some driver =>
        if driver.driverCharaType &&& charaType = 0 then pure []
        else do
          let m ← Locking.get
          pure (((env.order.visit m.state.records.charaInfoMap).map
            fun e => m.state.records.heap e.2).filter fun val =>
              val.uuid = uuid ∧ val.charaType = charaType ∧ val.serverName = driverName ∧
                val.bAvailable)

/-- Source: `charaDataManger/manager.go`, `CharaDataManager.CheckCharaNameAvailable`. -/
def checkCharaNameAvailable (env : DriverAnswers) (uuid : String) (charaType : CharaType)
    (charaName : String) : Op Bool :=
  Locking.withLock .charaInfoMtx .read do
    let m ← Locking.get
    pure (m.state.records.checkCharaNameAvailable env.order uuid charaType charaName)

/-- The name is checked while the actions are held. Source: `charaDataManger/manager.go`,
`CharaDataManager.CheckErollAvaliable`. -/
def checkErollAvaliable (env : DriverAnswers) (sender : String) (uuid : Option String)
    (charaType : CharaType) (charaName : String) : Op Bool :=
  Locking.withLock .actionMapMtx .read do
    let m ← Locking.get
    if m.state.enrolls sender then pure false
    else
      match uuid with
      | none => pure false
      | some uuid => checkCharaNameAvailable env uuid charaType charaName

/-- The public operations and the signal handlers, with what they are called with.
Source: `charaDataManger/manager.go`. -/
inductive Operation where
  | getDriver (serverName : String) (charaType : CharaType)
  | getDefaultDriver (serverName : String) (charaType : CharaType)
  | getAvailableCharaInfoByDriverNameAndType (uuid : String) (charaType : CharaType)
      (driverName : String)
  | checkErollAvaliable (sender : String) (uuid : Option String) (charaType : CharaType)
      (charaName : String)
  | checkCharaNameAvailable (uuid : String) (charaType : CharaType) (charaName : String)
  | saveCharaInfo (charaInfo : ℕ) (now : ℤ)
  | changeCharaName (uuid : String) (charaType : CharaType) (oldName newName : String)
  | deleteChara (uuid : String) (charaType : CharaType) (charaName : String)
  | genActionId (sender driverName : String) (unionName : Option String) (actionType : ActionType)
      (charaType : CharaType)
  | releasseActionId (action : ℕ)
  | getErollActionInfo (sender : String)
  | getActionInfo (action : ℕ)
  | getDriverInfo
  | handleDriverSignalEnrollStatus (action : ℕ) (code : ℤ)
  | handleDriverSignalVerifyStatus (action : ℕ) (code : ℤ)
  | handleDriverListChange (serverName : String) (chara : List String)
  | charaTypeChanged (serverName : String) (value : CharaType)
  | nameOwnerChanged (name : String)

/-- A change under one mutex. -/
def change (mtx : Mutex) (f : CharaDataManager → CharaDataManager) : Op Unit :=
  Locking.withLock mtx .write (Locking.modify f)

/-- Something is read under one mutex. -/
def peek (mtx : Mutex) : Op Unit := Locking.withLock mtx .read (pure ())

/-- What an operation does; what it answers is left out. -/
def Operation.run (env : DriverAnswers) : Operation → Op Unit
  | .getDriver serverName charaType => do
      let _ ← CharaDataManager.getDriver env serverName charaType
  | .getDefaultDriver serverName charaType => do
      let _ ← CharaDataManager.getDefaultDriver env serverName charaType
  | .getAvailableCharaInfoByDriverNameAndType uuid charaType driverName => do
      let _ ← CharaDataManager.getAvailableCharaInfoByDriverNameAndType env uuid charaType
        driverName
  | .checkErollAvaliable sender uuid charaType charaName => do
      let _ ← CharaDataManager.checkErollAvaliable env sender uuid charaType charaName
  | .checkCharaNameAvailable uuid charaType charaName => do
      let _ ← CharaDataManager.checkCharaNameAvailable env uuid charaType charaName
  | .saveCharaInfo charaInfo now =>
      change .charaInfoMtx fun m => m.setRecords fun records => records.saveCharaInfo charaInfo now
  | .changeCharaName uuid charaType oldName newName =>
      change .charaInfoMtx fun m => m.setRecords fun records =>
        (records.changeCharaName env.order uuid charaType oldName newName).1
  | .deleteChara uuid charaType charaName =>
      change .charaInfoMtx fun m => m.setRecords fun records =>
        records.deleteChara env.order uuid charaType charaName
  | .genActionId sender driverName unionName actionType charaType =>
      change .actionMapMtx fun m =>
        match m.state.genActionId sender driverName unionName actionType charaType with
        | some (state, _) => { m with state }
        | none => m
  | .releasseActionId action =>
      change .actionMapMtx fun m => { m with state := m.state.releaseActionId action }
  | .getErollActionInfo _ | .getActionInfo _ => peek .actionMapMtx
  | .getDriverInfo => peek .serverMtx
  | .handleDriverSignalEnrollStatus action code | .handleDriverSignalVerifyStatus action code =>
      change .actionMapMtx fun m => { m with state := m.state.setCode action code }
  | .handleDriverListChange serverName chara =>
      change .charaInfoMtx fun m => m.setRecords fun records =>
        records.handleDriverListChange env.order serverName chara
  | .charaTypeChanged serverName value => do
      let m ← Locking.get
      match m.serverMap.lookup serverName with
      | none => pure ()
      | some driver =>
          if driver.driverCharaType ≠ value then do
            Locking.modify fun m => m.setDriverCharaType serverName value
            handleDriverCharaTypeChange env driver driver.driverCharaType value
          else pure ()
  | .nameOwnerChanged _ => change .actionMapMtx id

/-! ## What must not be held -/

section

variable {env : DriverAnswers} {held : Held Mutex} {m : CharaDataManager} {driver : CommonDriver}

/-- What is held besides matters for its own mutex only. -/
theorem not_conflicts_cons {mtx mtx' : Mutex} {mode mode' : Mode} (hne : mtx' ≠ mtx)
    (h : ¬ held.Conflicts mtx mode) : ¬ Held.Conflicts ((mtx', mode') :: held) mtx mode := by
  rintro ⟨e, he, heq, hmode⟩
  rcases List.mem_cons.mp he with rfl | he
  · exact hne heq
  · exact h ⟨e, he, heq, hmode⟩

theorem conflicts_cons {mtx : Mutex} {mode : Mode} (e : Mutex × Mode)
    (h : held.Conflicts mtx mode) : Held.Conflicts (e :: held) mtx mode := by
  obtain ⟨e', he', hrest⟩ := h
  exact ⟨e', List.mem_cons_of_mem e he', hrest⟩

/-- The records and the actions are enough to be free of. -/
theorem safe_handleDriverCharaTypeChange {old new : CharaType}
    (hinfo : charaAdd old new ≠ 0 → ¬ held.Conflicts .charaInfoMtx .write)
    (haction : ¬ held.Conflicts .actionMapMtx .read) :
    Locking.Safe held (handleDriverCharaTypeChange env driver old new) := by
  have hdelete : ∀ held' : Held Mutex, ¬ held'.Conflicts .actionMapMtx .read →
      Locking.Safe held' (withLockIf (charaDelete old new ≠ 0) .actionMapMtx .read
        (Locking.modify fun m =>
          if m.affected driver (charaDelete old new) then
            m.setRecords fun records =>
              records.setUnavailable env.order driver.service (charaDelete old new)
          else m)) := by
    intro held' hheld'
    unfold withLockIf
    apply Locking.safe_ite
    · exact Locking.safe_withLock hheld' (Locking.safe_modify _)
    · exact Locking.safe_modify _
  unfold handleDriverCharaTypeChange withLockIf
  by_cases hadd : charaAdd old new = 0
  · rw [if_neg (by simp [hadd]), if_neg (not_not_intro hadd)]
    exact hdelete held haction
  · rw [if_pos (decide_eq_true hadd), if_pos hadd]
    apply Locking.safe_withLock (hinfo hadd)
    apply Locking.safe_bind (Locking.safe_modify _)
    intro _
    exact hdelete _ (not_conflicts_cons (by decide) haction)

/-- **A type that is new** asks for the records. -/
theorem returns_handleDriverCharaTypeChange_iff {old new : CharaType}
    (haction : ¬ held.Conflicts .actionMapMtx .read) :
    Locking.Returns held m (handleDriverCharaTypeChange env driver old new) ↔
      (held.Conflicts .charaInfoMtx .write → charaAdd old new = 0) := by
  constructor
  · intro hreturns hinfo
    by_contra hadd
    unfold handleDriverCharaTypeChange at hreturns
    rw [withLockIf, if_pos (decide_eq_true hadd)] at hreturns
    exact Locking.not_returns_withLock hinfo hreturns
  · intro h
    exact safe_handleDriverCharaTypeChange (fun hadd hinfo => hadd (h hinfo)) haction m

theorem charaAdd_self (old : CharaType) : charaAdd old old = 0 := by
  unfold charaAdd
  rw [BitVec.or_self, BitVec.xor_self]
  rfl

theorem returns_updateCharaType_iff {charaType : CharaType}
    (haction : ¬ held.Conflicts .actionMapMtx .read) :
    Locking.Returns held m (updateCharaType env driver charaType) ↔
      (held.Conflicts .charaInfoMtx .write → charaAdd driver.driverCharaType charaType = 0) := by
  unfold updateCharaType
  by_cases hsame : charaType = driver.driverCharaType
  · rw [if_neg (not_not_intro hsame), hsame]
    exact iff_of_true (Locking.safe_pure () m) (fun _ => charaAdd_self _)
  · rw [if_pos hsame, Locking.returns_bind fun _ => Locking.safe_modify _]
    exact returns_handleDriverCharaTypeChange_iff haction

/-- The driver is known and answers with a type that it did not have. -/
def GainsType (env : DriverAnswers) (m : CharaDataManager) (serverName : String) : Prop :=
  ∃ driver charaType, m.serverMap.lookup serverName = some driver ∧
    env.charaType serverName = some charaType ∧ charaType ≠ 0 ∧
      charaAdd driver.driverCharaType charaType ≠ 0

/-- **A driver is found** under the mutex of the records just when it has gained no type. -/
theorem returns_getDriver_iff {serverName : String} {charaType : CharaType}
    (hserver : ¬ held.Conflicts .serverMtx .read)
    (haction : ¬ held.Conflicts .actionMapMtx .read) :
    Locking.Returns held m (getDriver env serverName charaType) ↔
      (held.Conflicts .charaInfoMtx .write → ¬ GainsType env m serverName) := by
  have hinfo : Held.Conflicts ((Mutex.serverMtx, Mode.read) :: held) .charaInfoMtx .write ↔
      held.Conflicts .charaInfoMtx .write :=
    ⟨fun h => by_contra fun h' => not_conflicts_cons (by decide) h' h, conflicts_cons _⟩
  unfold getDriver
  rw [Locking.returns_withLock hserver, Locking.returns_get_bind]
  rcases hdriver : m.serverMap.lookup serverName with _ | driver
  · refine iff_of_true (Locking.safe_pure _ m) ?_
    rintro _ ⟨driver, _, h, _⟩
    rw [hdriver] at h
    cases h
  rcases htype : env.charaType serverName with _ | tempCharaType
  · refine iff_of_true (Locking.safe_pure _ m) ?_
    rintro _ ⟨_, tempCharaType, _, h, _⟩
    rw [htype] at h
    cases h
  have hgains : ¬ GainsType env m serverName ↔
      (tempCharaType ≠ 0 → charaAdd driver.driverCharaType tempCharaType = 0) := by
    constructor
    · intro h hne
      by_contra hadd
      exact h ⟨driver, tempCharaType, hdriver, htype, hne, hadd⟩
    · rintro h ⟨driver', tempCharaType', hdriver', htype', hne, hadd⟩
      obtain rfl := Option.some.inj (hdriver.symm.trans hdriver')
      obtain rfl := Option.some.inj (htype.symm.trans htype')
      exact hadd (h hne)
  dsimp only
  rw [hgains]
  by_cases hne : tempCharaType = 0
  · rw [if_pos hne]
    exact iff_of_true (Locking.safe_pure _ m) (fun _ h => absurd hne h)
  · rw [if_neg hne, Locking.returns_bind fun _ => Locking.safe_ite (Locking.safe_pure _)
      (Locking.safe_pure _), returns_updateCharaType_iff (not_conflicts_cons (by decide) haction),
      hinfo]
    exact forall_congr' fun _ => ⟨fun h _ => h, fun h => h hne⟩

theorem safe_updateCharaType {charaType : CharaType}
    (hinfo : ¬ held.Conflicts .charaInfoMtx .write)
    (haction : ¬ held.Conflicts .actionMapMtx .read) :
    Locking.Safe held (updateCharaType env driver charaType) :=
  fun _ => (returns_updateCharaType_iff haction).mpr (fun h => absurd h hinfo)

/-- The loop calls for a change at every driver it comes to. -/
theorem safe_defaultDriverLoop {charaType : CharaType}
    (hinfo : ¬ held.Conflicts .charaInfoMtx .write)
    (haction : ¬ held.Conflicts .actionMapMtx .read) (es : List (Σ _ : String, CommonDriver)) :
    Locking.Safe held (defaultDriverLoop env charaType es) := by
  induction es with
  | nil => exact Locking.safe_pure _
  | cons e es ih =>
    unfold defaultDriverLoop
    split
    · refine Locking.safe_ite ih (Locking.safe_bind (safe_updateCharaType hinfo haction) ?_)
      intro _
      exact Locking.safe_ite (Locking.safe_pure _) ih
    · exact ih

theorem safe_getDefaultDriver {serverName : String} {charaType : CharaType}
    (hinfo : ¬ held.Conflicts .charaInfoMtx .write)
    (haction : ¬ held.Conflicts .actionMapMtx .read) :
    Locking.Safe held (getDefaultDriver env serverName charaType) := by
  unfold getDefaultDriver
  apply Locking.safe_bind Locking.safe_get
  intro m
  apply Locking.safe_ite
  · split
    · refine Locking.safe_ite (Locking.safe_pure _) (Locking.safe_bind ?_ ?_)
      · exact safe_updateCharaType hinfo haction
      · intro _
        exact Locking.safe_pure _
    · exact Locking.safe_pure _
  · exact safe_defaultDriverLoop hinfo haction _

theorem safe_checkCharaNameAvailable {uuid : String} {charaType : CharaType} {charaName : String}
    (hinfo : ¬ held.Conflicts .charaInfoMtx .read) :
    Locking.Safe held (checkCharaNameAvailable env uuid charaType charaName) := by
  refine Locking.safe_withLock hinfo (Locking.safe_bind Locking.safe_get ?_)
  intro _
  exact Locking.safe_pure _

theorem safe_checkErollAvaliable {sender : String} {uuid : Option String} {charaType : CharaType}
    {charaName : String} (hinfo : ¬ held.Conflicts .charaInfoMtx .read)
    (haction : ¬ held.Conflicts .actionMapMtx .read) :
    Locking.Safe held (checkErollAvaliable env sender uuid charaType charaName) := by
  refine Locking.safe_withLock haction (Locking.safe_bind Locking.safe_get ?_)
  intro _
  apply Locking.safe_ite (Locking.safe_pure _)
  cases uuid with
  | none => exact Locking.safe_pure _
  | some uuid => exact safe_checkCharaNameAvailable (not_conflicts_cons (by decide) hinfo)

/-- The check comes to what it comes to for the records and the actions alone. -/
theorem checkErollAvaliable_eq {sender : String} {charaType : CharaType} {charaName : String}
    {answers : Answers} (horder : env.order = answers.order) :
    checkErollAvaliable env sender answers.uuid charaType charaName [] m =
      .ok (m.state.checkErollAvaliable sender charaType charaName answers, m) := by
  show (if m.state.enrolls sender then pure false
    else match answers.uuid with
      | none => pure false
      | some uuid => checkCharaNameAvailable env uuid charaType charaName : Op Bool)
    [(Mutex.actionMapMtx, Mode.read)] m = _
  unfold State.checkErollAvaliable
  split_ifs
  · rfl
  rcases answers.uuid with _ | uuid
  · rfl
  · rw [← horder]
    rfl

/-- The mutex of the records is held while the driver is looked for. -/
theorem returns_getAvailableCharaInfo_iff {uuid : String} {charaType : CharaType}
    {driverName : String} :
    Locking.Returns [] m
        (getAvailableCharaInfoByDriverNameAndType env uuid charaType driverName) ↔
      ¬ GainsType env m driverName := by
  unfold getAvailableCharaInfoByDriverNameAndType
  rw [Locking.returns_withLock (by decide), Locking.returns_bind]
  · rw [returns_getDriver_iff (by decide) (by decide)]
    exact forall_prop_of_true (by decide)
  · rintro ⟨_ | driver, _⟩
    · exact Locking.safe_pure _
    · refine Locking.safe_ite (Locking.safe_pure _) (Locking.safe_bind Locking.safe_get ?_)
      intro _
      exact Locking.safe_pure _

theorem safe_change (mtx : Mutex) (f : CharaDataManager → CharaDataManager) :
    Locking.Safe [] (change mtx f) :=
  Locking.safe_withLock (by rintro ⟨_, h, _⟩; cases h) (Locking.safe_modify f)

theorem safe_peek (mtx : Mutex) : Locking.Safe [] (peek mtx) :=
  Locking.safe_withLock (by rintro ⟨_, h, _⟩; cases h) (Locking.safe_pure ())

/-- The answer of an operation does not matter. -/
theorem returns_discard {α : Type} (p : Op α) :
    Locking.Returns held m (do let _ ← p) ↔ Locking.Returns held m p :=
  Locking.returns_bind fun _ => Locking.safe_pure ()

end

/-! ## The operations -/

/-- It is not the records of a driver that has gained a type that are listed. -/
def Operation.ListsNoNewType (env : DriverAnswers) (m : CharaDataManager) : Operation → Prop
  | .getAvailableCharaInfoByDriverNameAndType _ _ driverName => ¬ GainsType env m driverName
  | _ => True

/-- **An operation returns** from any state, whatever the drivers answer, unless it lists the
records of a driver that has gained a type. -/
theorem returns_iff (env : DriverAnswers) (m : CharaDataManager) (op : Operation) :
    Locking.Returns [] m (op.run env) ↔ op.ListsNoNewType env m := by
  cases op with
  | getAvailableCharaInfoByDriverNameAndType uuid charaType driverName =>
    exact (returns_discard _).trans returns_getAvailableCharaInfo_iff
  | getDriver serverName charaType =>
    refine iff_of_true ((returns_discard _).mpr ?_) trivial
    exact (returns_getDriver_iff (by decide) (by decide)).mpr (fun h => absurd h (by decide))
  | getDefaultDriver serverName charaType =>
    refine iff_of_true ((returns_discard _).mpr ?_) trivial
    exact safe_getDefaultDriver (by decide) (by decide) m
  | checkErollAvaliable sender uuid charaType charaName =>
    refine iff_of_true ((returns_discard _).mpr ?_) trivial
    exact safe_checkErollAvaliable (by decide) (by decide) m
  | checkCharaNameAvailable uuid charaType charaName =>
    refine iff_of_true ((returns_discard _).mpr ?_) trivial
    exact safe_checkCharaNameAvailable (by decide) m
  | charaTypeChanged serverName value =>
    refine iff_of_true (Locking.returns_get_bind.mpr ?_) trivial
    rcases m.serverMap.lookup serverName with _ | driver
    · exact Locking.safe_pure () m
    · refine Locking.safe_ite (Locking.safe_bind (Locking.safe_modify _) ?_)
        (Locking.safe_pure ()) m
      intro _
      exact safe_handleDriverCharaTypeChange (fun _ => by decide) (by decide)
  | getErollActionInfo | getActionInfo | getDriverInfo => exact iff_of_true (safe_peek _ m) trivial
  | saveCharaInfo | changeCharaName | deleteChara | genActionId | releasseActionId
  | handleDriverSignalEnrollStatus | handleDriverSignalVerifyStatus | handleDriverListChange
  | nameOwnerChanged => exact iff_of_true (safe_change _ _ m) trivial

/-! ## A camera that learns to see an iris -/

/-- A manager with one driver, before anything is recorded. -/
def withDriver (driver : CommonDriver) : CharaDataManager where
  state := State.init
  serverMap := (∅ : GoMap String CommonDriver).insert driver.service driver
  service_eq := by
    intro name driver' h
    by_cases hname : name = driver.service
    · rw [hname, AList.lookup_insert, Option.some.injEq] at h
      rw [← h, hname]
    · rw [AList.lookup_insert_ne hname] at h
      cases h

/-- A driver of faces, which answers that it has faces and irises. -/
def learned : DriverAnswers :=
  ⟨fun _ => some false, fun _ => some 68, fun _ => some [], .listed _ _, .listed _ _⟩

/-- Its records are asked for. -/
theorem list_waits_for_itself :
    ¬ ∀ (env : DriverAnswers) (m : CharaDataManager) (op : Operation),
      Locking.Returns [] m (op.run env) := by
  intro hall
  obtain ⟨r, hr⟩ := hall learned (withDriver ⟨"com.lingmo.face", 4, ":1.9"⟩)
    (.getAvailableCharaInfoByDriverNameAndType "1000" 4 "com.lingmo.face")
  have h : (Operation.getAvailableCharaInfoByDriverNameAndType "1000" 4 "com.lingmo.face").run
      learned [] (withDriver ⟨"com.lingmo.face", 4, ":1.9"⟩) = .error .charaInfoMtx := rfl
  rw [h] at hr
  cases hr

end CharaDataManager

end LingmoAuthenticate.Chara
