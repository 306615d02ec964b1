import LingmoAuthenticate.Chara.Enroll
import LingmoAuthenticate.Lib.Chan
import LingmoAuthenticate.Lib.Locking
import LingmoAuthenticate.Lib.Wedge
import LingmoAuthenticate.Session.Transactions

/-!
# What drivers signal: `charaDataManger/manager.go`

What is signalled of an action goes through a channel of the action, with room for five codes. Those
who send hold the mutex of the actions. Those who receive are the goroutine that enrols
(`charaManager/manager.go`) and the one that verifies (`session/face_tx.go`, `session/iris_tx.go`);
the first of them asks for that mutex after each code, and the second one stops at the last code,
while the action is there until the transaction ends.

* `State.next`, `State.effect`: where a goroutine goes, and what it does to the actions on its way.
* `State.Calm`: what a step does not do.
* `wedged_step_iff`: a step that is not calm leaves a sender that waits for ever.
* `never_wedged_iff`: no sender waits for ever in a run exactly where every step is calm; so in the
  runs in which nobody comes to a channel that is full (`FindsRoom`).
-/

namespace LingmoAuthenticate.Chara.Signals

open Lib AuthCommon Session

/-! ## Codes -/

/-- Source: `authcommon/type.go`, `CodeStatusInfo`. -/
structure CodeStatusInfo where
  actionId : ℕ
  sender : String
  code : ℤ
  msg : String
  deriving DecidableEq, Repr

/-- Source: `authcommon/face.go`, `FaceEnrollStatusCodeDisconnected`. -/
def faceEnrollStatusCodeDisconnected : ℤ := 13

/-- Source: `authcommon/face.go`, `FaceEnrollStatusCodeSenderDisconnected`. -/
def faceEnrollStatusCodeSenderDisconnected : ℤ := 14

/-- Source: `authcommon/iris.go`, `IrisEnrollDisconnected`. -/
def irisEnrollDisconnected : ℤ := 9

/-- Source: `authcommon/iris.go`, `IrisEnrollSenderDisconnected`. -/
def irisEnrollSenderDisconnected : ℤ := 10

/-- Source: `authcommon/face.go`, `FaceVerifyDisconnected`. -/
def faceVerifyDisconnected : ℤ := 13

/-- Source: `authcommon/face.go`, `FaceVerifySenderDisconnected`. -/
def faceVerifySenderDisconnected : ℤ := 14

/-- Source: `authcommon/iris.go`, `IrisVerifyDisconnected`. -/
def irisVerifyDisconnected : ℤ := 9

/-- Source: `authcommon/iris.go`, `IrisVerifySenderDisconnected`. -/
def irisVerifySenderDisconnected : ℤ := 10

/-- Source: `charaDataManger/manager.go`, in `CharaDataManager.initlistenNameLost`. -/
def senderDisconnectedCode (actionType : ActionType) (charaType : CharaType) : ℤ :=
  match actionType with
  | .enroll =>
      if charaType = authenticationFlagFace then faceEnrollStatusCodeSenderDisconnected
      else irisEnrollSenderDisconnected
  | .verify =>
      if charaType = authenticationFlagFace then faceVerifySenderDisconnected
      else irisVerifySenderDisconnected

/-- Source: `charaDataManger/manager.go`, in `CharaDataManager.initlistenNameLost`. -/
def driverDisconnectedCode (actionType : ActionType) (charaType : CharaType) : ℤ :=
  match actionType with
  | .enroll =>
      if charaType = authenticationFlagFace then faceEnrollStatusCodeDisconnected
      else irisEnrollDisconnected
  | .verify =>
      if charaType = authenticationFlagFace then faceVerifyDisconnected
      else irisVerifyDisconnected

/-- The code of an iris that enrols is overwritten with that of a face.
Source: `charaDataManger/manager.go`, in `CharaDataManager.HandleDriverCharaTypeChange`. -/
def notSupportedCode : ActionType → ℤ
  | .enroll => faceEnrollStatusCodeDisconnected
  | .verify => faceVerifyDisconnected

/-- The flag of a camera. -/
def cameraFlag : CameraType → CharaType
  | .face => authenticationFlagFace
  | .iris => authenticationFlagIris

/-! ## Goroutines -/

/-- A goroutine, as what it does next. An action is known by the goroutine that generates it, which
is the one that receives from its channel. -/
inductive Goroutine where
  | finished
  /-- `handleDriverSignalEnrollStatus`, `handleDriverSignalVerifyStatus`: the mutex is locked. -/
  | handleDriverSignal (actionId : ℕ) (code : ℤ) (msg : String)
  /-- The handler of lost names: the mutex is locked. -/
  | nameOwnerChanged (name : String)
  /-- `HandleDriverCharaTypeChange`, where types are gone: the mutex is locked to read. -/
  | charaTypeChange (uniqueName : String) (charaDelete : CharaType) (next : Goroutine)
  /-- The mutex is held until all of this is sent. -/
  | sending (mode : Mode) (pending : List CodeStatusInfo) (next : Goroutine)
  /-- `EnrollStart`: `CheckErollAvaliable`. -/
  | checkErollAvaliable (sender : String) (charaType : CharaType)
  /-- `EnrollStart`: `GetDriver`. -/
  | enrollDriver (sender : String) (charaType : CharaType)
  /-- `EnrollStart`: `GenActionId`. -/
  | enrollActionId (sender : String) (charaType : CharaType)
  /-- `EnrollStart`: the driver starts. -/
  | enrollStart
  /-- `EnrollStart`: `GetActionInfo`. -/
  | saveCharaInfoToActionInfo
  /-- `EnrollStart`: the user is looked for. -/
  | getUserUuid
  /-- `listenStatusInfo`: a code is received. -/
  | listenStatusInfo
  /-- `listenStatusInfo`: `GetActionInfo`. -/
  | getActionInfo (result : CodeStatusInfo)
  /-- `listenStatusInfo`: `GetDriver`. -/
  | senderDisconnected (actionId : ℕ)
  /-- `ReleasseActionId`, and then the next. -/
  | releasseActionId (actionId : ℕ) (next : Goroutine)
  /-- `EnrollStop`: `GetErollActionInfo`. -/
  | getErollActionInfo (sender : String)
  /-- `EnrollStop`: `GetDriver`. -/
  | stopDriver (actionId : ℕ)
  /-- `EnrollStop`: the driver stops. -/
  | enrollStop (actionId : ℕ)
  /-- `EnrollStop`: `GetActionInfo`. -/
  | saveCharaInfoToCharaData (actionId : ℕ)
  /-- `verify`: `GetDefaultDriver`. -/
  | verifyDriver (sender : String) (camera : CameraType)
  /-- `verify`: `GenActionId`. -/
  | verifyActionId (sender : String) (camera : CameraType)
  /-- `verify`: `GetAvailableCharaInfoByDriverNameAndType`. -/
  | verifyCharas (camera : CameraType)
  /-- `verify`: the driver starts. -/
  | verifyStart (camera : CameraType)
  /-- `verify`: the loop. -/
  | verify (camera : CameraType)
  /-- `verify`: the driver stops and starts again. -/
  | restart (camera : CameraType)
  /-- `GetDriver`, for a call that has no action. -/
  | getDriver
  deriving DecidableEq, Repr

namespace Goroutine

/-- How the mutex of the actions is asked for. -/
def asks : Goroutine → Option Mode
  | handleDriverSignal _ _ _ | nameOwnerChanged _ | enrollActionId _ _ | verifyActionId _ _
  | releasseActionId _ _ => some .write
  | charaTypeChange _ _ _ | checkErollAvaliable _ _ | saveCharaInfoToActionInfo | getActionInfo _
  | getErollActionInfo _ | saveCharaInfoToCharaData _ => some .read
  | _ => none

/-- How it is held. -/
def holds : Goroutine → Option Mode
  | sending mode _ _ => some mode
  | _ => none

/-- The action whose channel is sent to next. -/
def target : Goroutine → Option ℕ
  | sending _ (c :: _) _ => some c.actionId
  | _ => none

/-- The goroutine has finished, or asks for the mutex. -/
def Lost (g : Goroutine) : Prop := g = finished ∨ g.asks.isSome

instance (g : Goroutine) : Decidable g.Lost := inferInstanceAs (Decidable (_ ∨ _))

/-- Types of a driver have changed; the mutex is asked for where some are gone.
Source: `charaDataManger/manager.go`, `CharaDataManager.HandleDriverCharaTypeChange`. -/
def handleDriverCharaTypeChange (uniqueName : String) (charaDelete : CharaType)
    (next : Goroutine) : Goroutine :=
  if charaDelete ≠ 0 then charaTypeChange uniqueName charaDelete next else next

end Goroutine

/-! ## The actions and the goroutines -/

/-- Source: `charaDataManger/manager.go`, `ActionInfo`. -/
structure ActionInfo where
  uniqueSenderName : String
  uniqueReceiverName : String
  actionType : ActionType
  charaType : CharaType
  codeStatusChan : Chan CodeStatusInfo 5

/-- The actions, and the goroutines that were started.
Source: `charaDataManger/manager.go`, `CharaDataManager`. -/
structure State where
  actions : ℕ → ActionInfo
  actionMap : GoMap (String × CharaType) ℕ
  goroutines : ℕ → Goroutine
  started : ℕ

/-- What wakes the loop of `verify`: its quit channel is closed, its timer fires, or a code has come
in the channel of the action. Which of them, if there are several, is left open, as in Go. -/
inductive Wake where
  | quit
  | timer
  | codeStatusInfo
  deriving DecidableEq, Repr

/-- What a step finds outside of the actions: the order of a loop; whether a driver is found, and
the name and the types that are gone of one whose types have changed; whether a call of the driver
or of the bus goes well; whether the enrolment is complete; the owner of the name of the driver; and
what wakes `verify`. -/
structure Env where
  order : GoMap.RangeOrder (String × CharaType) ℕ
  driver : Bool
  change : Option (String × CharaType)
  ok : Bool
  complete : Bool
  unionName : Option String
  wake : Wake

/-- A driver is asked for. Source: `charaDataManger/manager.go`, `CharaDataManager.GetDriver` and
`CharaDataManager.GetDefaultDriver`. -/
def Env.getDriver (env : Env) (found missing : Goroutine) : Goroutine :=
  let next := if env.driver then found else missing
  match env.change with
  | none => next
  | some (uniqueName, charaDelete) => .handleDriverCharaTypeChange uniqueName charaDelete next

/-- What happens from outside: the signals of a driver and of the bus, the calls of clients and of
transactions, and a transaction that ends. -/
inductive Event where
  | enrollStatus (actionId : ℕ) (code : ℤ) (msg : String)
  | verifyStatus (actionId : ℕ) (code : ℤ) (msg : String)
  | nameOwnerChanged (name : String)
  | charaTypeChanged (uniqueName : String) (charaDelete : CharaType)
  | enrollStart (sender : String) (charaType : CharaType)
  | enrollStop (sender : String)
  | verify (sender : String) (camera : CameraType)
  | endTx (actionId : ℕ)
  | getDriver

/-- The goroutine of an event. That `end` has received from `release` first is left out. -/
def Event.goroutine : Event → Goroutine
  | enrollStatus actionId code msg | verifyStatus actionId code msg =>
      .handleDriverSignal actionId code msg
  | nameOwnerChanged name => .nameOwnerChanged name
  | charaTypeChanged uniqueName charaDelete =>
      .handleDriverCharaTypeChange uniqueName charaDelete .finished
  | enrollStart sender charaType => .checkErollAvaliable sender charaType
  | enrollStop sender => .getErollActionInfo sender
  | verify sender camera => .verifyDriver sender camera
  | endTx actionId => .releasseActionId actionId .finished
  | getDriver => .getDriver

/-- An event, which begins a goroutine, or the next step of the goroutine `i`, with what it finds
outside of the manager. -/
inductive Action where
  | event (e : Event)
  | go (i : ℕ) (env : Env)

namespace State

/-- The channel of an action. -/
def chan (s : State) (a : ℕ) : Chan CodeStatusInfo 5 := (s.actions a).codeStatusChan

/-- The channel of an action is replaced. -/
def setChan (s : State) (a : ℕ) (c : Chan CodeStatusInfo 5) : State :=
  { s with actions := Function.update s.actions a { s.actions a with codeStatusChan := c } }

/-- The action is under way. -/
def hasAction (s : State) (a : ℕ) : Bool := s.actionMap.entries.any fun e => e.2 = a

/-- What is signalled of an action. Source: `charaDataManger/manager.go`,
`CharaDataManager.handleDriverSignalEnrollStatus` and
`CharaDataManager.handleDriverSignalVerifyStatus`. -/
def signalCodes (s : State) (env : Env) (actionId : ℕ) (code : ℤ) (msg : String) :
    List CodeStatusInfo :=
  ((env.order.visit s.actionMap).filter fun e => e.2 = actionId).map fun e =>
    ⟨actionId, (s.actions e.2).uniqueSenderName, code, msg⟩

/-- What a name that is lost means for an action. -/
def lossCodesOf (s : State) (name : String) (a : ℕ) : List CodeStatusInfo :=
  let val := s.actions a
  (if val.uniqueSenderName = name then
    [⟨a, val.uniqueSenderName, senderDisconnectedCode val.actionType val.charaType,
      "Sender Disconnected"⟩] else []) ++
  (if val.uniqueReceiverName = name then
    [⟨a, val.uniqueSenderName, driverDisconnectedCode val.actionType val.charaType,
      "driver Disconnected"⟩] else [])

/-- What a name that is lost means for the actions. Source: `charaDataManger/manager.go`, in
`CharaDataManager.initlistenNameLost`. -/
def lossCodes (s : State) (env : Env) (name : String) : List CodeStatusInfo :=
  (env.order.visit s.actionMap).flatMap fun e => s.lossCodesOf name e.2

/-- What types that are gone mean for the actions. Source: `charaDataManger/manager.go`, in
`CharaDataManager.HandleDriverCharaTypeChange`. -/
def typeCodes (s : State) (env : Env) (uniqueName : String) (charaDelete : CharaType) :
    List CodeStatusInfo :=
  ((env.order.visit s.actionMap).filter fun e =>
    (s.actions e.2).uniqueReceiverName = uniqueName ∧
      (s.actions e.2).charaType &&& charaDelete ≠ 0).map fun e =>
    ⟨e.2, (s.actions e.2).uniqueSenderName, notSupportedCode (s.actions e.2).actionType,
      "chara not support"⟩

/-- The action of a client that enrols. Source: the loops of
`CharaDataManager.CheckErollAvaliable` and `CharaDataManager.GetErollActionInfo`. -/
def erollAction (s : State) (env : Env) (sender : String) : Option ℕ :=
  ((env.order.visit s.actionMap).find? fun e => (s.actions e.2).actionType = .enroll ∧
    (s.actions e.2).uniqueSenderName = sender).map fun e => e.2

/-- The client has no action of the type, and the name of the driver has an owner. -/
def canGenActionId (s : State) (env : Env) (sender : String) (charaType : CharaType) : Bool :=
  (s.actionMap.lookup (sender, charaType)).isNone && env.unionName.isSome

/-- A new action, with a new channel. Source: `charaDataManger/manager.go`,
`CharaDataManager.GenActionId`. -/
def genActionId (s : State) (i : ℕ) (env : Env) (sender : String) (actionType : ActionType)
    (charaType : CharaType) : State :=
  if s.canGenActionId env sender charaType then
    { s with
      actions := Function.update s.actions i
        ⟨sender, env.unionName.getD "", actionType, charaType, .make _ _⟩
      actionMap := s.actionMap.insert (sender, charaType) i }
  else s

/-- The channel is closed and the action is deleted. Source: `charaDataManger/manager.go`,
`CharaDataManager.ReleasseActionId`. -/
def releasseActionId (s : State) (a : ℕ) : Option State :=
  if s.hasAction a then
    (s.chan a).close.toOption.map fun c =>
      { s.setChan a c with actionMap := s.actionMap.keep fun _ val => val ≠ a }
  else some s

/-- A goroutine receives from the channel of its action. -/
def receive (s : State) (i : ℕ) : Option State :=
  (s.chan i).recv.toOption.map fun r => s.setChan i r.2

/-- What a listener does with a code of an action that is under way.
Source: `charaManager/manager.go`, in `Manager.listenStatusInfo`. -/
def listen (s : State) (result : CodeStatusInfo) : Goroutine :=
  let charaType := (s.actions result.actionId).charaType
  if charaType = authenticationFlagFace ∧ result.code = faceVerifySenderDisconnected then
    .senderDisconnected result.actionId
  else if charaType = authenticationFlagIris ∧ result.code = irisEnrollSenderDisconnected then
    .senderDisconnected result.actionId
  else if (charaType = authenticationFlagFace ∧ result.code = faceEnrollStatusCodeDisconnected) ∨
      (charaType = authenticationFlagIris ∧ result.code = irisEnrollDisconnected) then
    .releasseActionId result.actionId .listenStatusInfo
  else .listenStatusInfo

/-- Where a goroutine goes. Source: `charaDataManger/manager.go`; `charaManager/manager_ifc.go`,
`Manager.EnrollStart` and `Manager.EnrollStop`; `charaManager/manager.go`,
`Manager.listenStatusInfo`; `session/face_tx.go`, `FaceTx.verify`; `session/iris_tx.go`,
`IrisTx.verify`. -/
def next (s : State) (i : ℕ) (env : Env) : Goroutine → Goroutine
  | .finished => .finished
  | .handleDriverSignal actionId code msg =>
      .sending .write (s.signalCodes env actionId code msg) .finished
  | .nameOwnerChanged name => .sending .write (s.lossCodes env name) .finished
  | .charaTypeChange uniqueName charaDelete next =>
      .sending .read (s.typeCodes env uniqueName charaDelete) next
  | .sending mode (_ :: pending) next => .sending mode pending next
  | .sending _ [] next => next
  | .checkErollAvaliable sender charaType =>
      if (s.erollAction env sender).isNone ∧ env.ok then .enrollDriver sender charaType
      else .finished
  | .enrollDriver sender charaType =>
      env.getDriver (.enrollActionId sender charaType) .finished
  | .enrollActionId sender charaType =>
      if s.canGenActionId env sender charaType then .enrollStart else .finished
  | .enrollStart =>
      if env.ok then .saveCharaInfoToActionInfo else .releasseActionId i .finished
  | .saveCharaInfoToActionInfo =>
      if s.hasAction i then .getUserUuid else .releasseActionId i .finished
  | .getUserUuid => if env.ok then .listenStatusInfo else .releasseActionId i .finished
  | .listenStatusInfo =>
      match (s.chan i).buf with
      | result :: _ => .getActionInfo result
      | [] => .finished
  | .getActionInfo result => if s.hasAction result.actionId then s.listen result else .finished
  | .senderDisconnected actionId =>
      env.getDriver (.releasseActionId actionId .finished) (.releasseActionId actionId .finished)
  | .releasseActionId _ next => next
  | .getErollActionInfo sender =>
      match s.erollAction env sender with
      | some actionId => .stopDriver actionId
      | none => .finished
  | .stopDriver actionId => env.getDriver (.enrollStop actionId) .finished
  | .enrollStop actionId =>
      if env.ok then
        if env.complete then .saveCharaInfoToCharaData actionId
        else .releasseActionId actionId .finished
      else .finished
  | .saveCharaInfoToCharaData actionId => .releasseActionId actionId .finished
  | .verifyDriver sender camera =>
      env.getDriver (.verifyActionId sender camera) .finished
  | .verifyActionId sender camera =>
      if s.canGenActionId env sender (cameraFlag camera) then .verifyCharas camera else .finished
  | .verifyCharas camera => env.getDriver (.verifyStart camera) (.verifyStart camera)
  | .verifyStart camera => if env.ok then .verify camera else .finished
  | .verify camera =>
      match env.wake with
      | .quit | .timer => .finished
      | .codeStatusInfo =>
          -- a closed channel yields the code zero
          let code := ((s.chan i).buf.head?.map CodeStatusInfo.code).getD 0
          if camera.isEndedStatus code then .finished
          else if camera.isContinue code then .restart camera
          else .verify camera
  | .restart camera => if env.ok then .verify camera else .finished
  | .getDriver => env.getDriver .finished .finished

/-- What a goroutine does to the actions on its way; none where it waits for the channel. -/
def effect (s : State) (i : ℕ) (env : Env) : Goroutine → Option State
  | .finished => none
  | .sending _ (c :: _) _ =>
      ((s.chan c.actionId).send c).toOption.map fun ch => s.setChan c.actionId ch
  | .enrollActionId sender charaType => some (s.genActionId i env sender .enroll charaType)
  | .verifyActionId sender camera =>
      some (s.genActionId i env sender .verify (cameraFlag camera))
  | .listenStatusInfo => s.receive i
  | .verify _ => if env.wake = .codeStatusInfo then s.receive i else some s
  | .releasseActionId a _ => s.releasseActionId a
  | _ => some s

/-- The mutex can be locked: it is free, or readers share it. -/
def canLock (s : State) (mode : Mode) : Bool :=
  (List.range s.started).all fun k =>
    match (s.goroutines k).holds with
    | none => true
    | some mode' => mode = .read ∧ mode' = .read

/-- A goroutine goes on, where it has the mutex that it asks for. -/
def move (s : State) : Action → Option State
  | .event e => some { s with
      goroutines := Function.update s.goroutines s.started e.goroutine
      started := s.started + 1 }
  | .go i env =>
      if (s.goroutines i).asks.all fun mode => s.canLock mode then
        (s.effect i env (s.goroutines i)).map fun t => { s with
          actions := t.actions
          actionMap := t.actionMap
          goroutines := Function.update s.goroutines i (s.next i env (s.goroutines i)) }
      else none

/-- One step, with nothing observed: the senders are read from the state. -/
def step (s : State) (a : Action) : Option (State × Unit) := (s.move a).map fun s => (s, ())

/-- The service has started. -/
def init : State :=
  ⟨fun _ => ⟨"", "", .enroll, 0, .make _ _⟩, ∅, fun _ => .finished, 0⟩

/-! ## Who waits for whom -/

/-- The goroutines as senders: whose channel they are at, and which are lost. -/
def senders (s : State) : Sending ℕ where
  target k := (s.goroutines k).target
  Lost k := (s.goroutines k).Lost
  Full a := (s.chan a).Full

/-- A goroutine that holds the mutex waits at a full channel, and who receives from the channel has
finished, or asks for the mutex. -/
def Wedged (s : State) : Prop := s.senders.Wedged

/-- The codes in a channel, once the goroutine has sent what it is about to send. -/
def load (s : State) (i a : ℕ) : ℕ :=
  (s.chan a).buf.length + if (s.goroutines i).target = some a then 1 else 0

/-- A goroutine is about to receive. -/
def receives (s : State) (i : ℕ) (env : Env) : Bool :=
  match s.goroutines i with
  | .listenStatusInfo => true
  | .verify _ => env.wake = .codeStatusInfo
  | _ => false

/-- A goroutine goes on without harm. It comes to no full channel whose receiver has finished or
asks for the mutex; unless it has just received, it does not finish, or ask for the mutex, while
another one is at its own full channel; and it fills no channel at which another one is, if the
receiver has finished or asks for the mutex. -/
structure CalmGo (s : State) (i : ℕ) (env : Env) : Prop where
  comes : ∀ a, a ≠ i → (s.next i env (s.goroutines i)).target = some a → s.load i a = 5 →
    ¬ (s.goroutines a).Lost
  leaves : (s.next i env (s.goroutines i)).Lost → s.receives i env = false → (s.chan i).Full →
    ∀ k, k ≠ i → (s.goroutines k).target ≠ some i
  fills : ∀ a k, a ≠ i → k ≠ i → (s.goroutines i).target = some a →
    (s.goroutines k).target = some a → s.load i a = 5 → ¬ (s.goroutines a).Lost

/-- What an action does not do, where it is taken. -/
def Calm (s : State) : Action → Prop
  | .event _ => True
  | .go i env => (s.move (.go i env)).isSome → s.CalmGo i env

/-- Who goes on comes to no channel whose five places are taken, and takes the last place of none
at which somebody else is. -/
def FindsRoom (s : State) : Action → Prop
  | .event _ => True
  | .go i env =>
      (∀ a, (s.next i env (s.goroutines i)).target = some a → s.load i a < 5) ∧
      ∀ a k, k ≠ i → (s.goroutines i).target = some a → (s.goroutines k).target = some a →
        s.load i a < 5

/-! ## What a step does to the channels -/

section

variable {s t : State} {i a : ℕ} {env : Env} {g : Goroutine}

theorem chan_setChan_self (s : State) (a : ℕ) (c : Chan CodeStatusInfo 5) :
    (s.setChan a c).chan a = c := by
  unfold chan setChan
  dsimp only
  rw [Function.update_self]

theorem chan_setChan_ne (s : State) {a b : ℕ} (c : Chan CodeStatusInfo 5) (hne : b ≠ a) :
    (s.setChan a c).chan b = s.chan b := by
  unfold chan setChan
  dsimp only
  rw [Function.update_of_ne hne]

/-- A new action has a channel of its own. -/
theorem chan_genActionId_ne (s : State) (env : Env) (sender : String) (actionType : ActionType)
    (charaType : CharaType) (hne : a ≠ i) :
    (s.genActionId i env sender actionType charaType).chan a = s.chan a := by
  unfold genActionId
  split_ifs
  · unfold chan
    dsimp only
    rw [Function.update_of_ne hne]
  · rfl

/-- What is closed keeps its codes. -/
theorem buf_releasseActionId {b : ℕ} (h : s.releasseActionId b = some t) :
    (t.chan a).buf = (s.chan a).buf := by
  unfold releasseActionId at h
  split_ifs at h with hact
  · obtain ⟨c, hc, rfl⟩ := Option.map_eq_some_iff.mp h
    have hbuf := (Chan.close_eq_done (Attempt.done_of_toOption hc)).2.1
    by_cases hab : a = b
    · subst hab
      show ((s.setChan a c).chan a).buf = _
      rw [chan_setChan_self, hbuf]
    · show ((s.setChan b c).chan a).buf = _
      rw [chan_setChan_ne s c hab]
  · cases h
    rfl

theorem chan_receive_ne (h : s.receive i = some t) (hne : a ≠ i) : t.chan a = s.chan a := by
  obtain ⟨r, -, rfl⟩ := Option.map_eq_some_iff.mp h
  exact chan_setChan_ne s r.2 hne

theorem not_full_of_receive (h : s.receive i = some t) : ¬ (t.chan i).Full := by
  obtain ⟨⟨o, c⟩, hr, rfl⟩ := Option.map_eq_some_iff.mp h
  rw [chan_setChan_self]
  exact Chan.not_full_of_recv (Attempt.done_of_toOption hr) (by decide)

/-- A goroutine changes the channel of another one by sending. -/
theorem length_effect (h : s.effect i env g = some t) (hne : a ≠ i) :
    (t.chan a).buf.length =
      (s.chan a).buf.length + if g.target = some a then 1 else 0 := by
  cases g with
  | sending mode pending next =>
    cases pending with
    | nil =>
      cases h
      rfl
    | cons c pending =>
      obtain ⟨ch, hsend, rfl⟩ := Option.map_eq_some_iff.mp h
      have hbuf := (Chan.send_eq_done (Attempt.done_of_toOption hsend)).2.1
      show _ = (s.chan a).buf.length + if some c.actionId = some a then 1 else 0
      by_cases hac : c.actionId = a
      · subst hac
        rw [if_pos rfl, chan_setChan_self, hbuf, List.length_append, List.length_singleton]
      · rw [if_neg fun h => hac (Option.some.inj h), chan_setChan_ne s ch (Ne.symm hac)]
        rfl
  | enrollActionId sender charaType =>
    cases h
    rw [chan_genActionId_ne s env sender .enroll charaType hne]
    rfl
  | verifyActionId sender camera =>
    cases h
    rw [chan_genActionId_ne s env sender .verify (cameraFlag camera) hne]
    rfl
  | listenStatusInfo =>
    rw [chan_receive_ne h hne]
    rfl
  | verify camera =>
    unfold effect at h
    split_ifs at h
    · rw [chan_receive_ne h hne]
      rfl
    · cases h
      rfl
  | releasseActionId b next =>
    rw [buf_releasseActionId h]
    rfl
  | finished => cases h
  | _ =>
    cases h
    rfl

theorem not_lost_of_target {g : Goroutine} (h : g.target = some a) : ¬ g.Lost := by
  cases g with
  | sending mode pending next => simp [Goroutine.Lost, Goroutine.asks]
  | _ => cases h

/-- A goroutine that has generated an action goes on. -/
theorem full_genActionId {sender : String} {actionType : ActionType} {charaType : CharaType}
    {found : Goroutine} (hfound : ¬ found.Lost)
    (hlost : (if s.canGenActionId env sender charaType then found else .finished).Lost) :
    ((s.genActionId i env sender actionType charaType).chan i).Full ↔ (s.chan i).Full := by
  unfold genActionId
  split_ifs at hlost ⊢
  · exact absurd hlost hfound
  · exact Iff.rfl

/-- Who is lost without having received, leaves its own channel as it was. -/
theorem full_effect_self (h : s.effect i env (s.goroutines i) = some t)
    (hlost : (s.next i env (s.goroutines i)).Lost) (hreceives : s.receives i env = false) :
    (t.chan i).Full ↔ (s.chan i).Full := by
  unfold receives at hreceives
  cases hg : s.goroutines i with
  | sending mode pending next =>
    rw [hg] at h hlost
    cases pending with
    | nil =>
      cases h
      exact Iff.rfl
    | cons c pending => simp [State.next, Goroutine.Lost, Goroutine.asks] at hlost
  | enrollActionId sender charaType =>
    rw [hg] at h hlost
    cases h
    exact full_genActionId (by decide) hlost
  | verifyActionId sender camera =>
    rw [hg] at h hlost
    cases h
    exact full_genActionId (by simp [Goroutine.Lost, Goroutine.asks]) hlost
  | listenStatusInfo =>
    rw [hg] at hreceives
    cases hreceives
  | verify camera =>
    rw [hg] at hreceives h
    unfold effect at h
    rw [if_neg (of_decide_eq_false hreceives)] at h
    cases h
    exact Iff.rfl
  | releasseActionId b next =>
    rw [hg] at h
    unfold Chan.Full
    rw [buf_releasseActionId h]
  | finished =>
    rw [hg] at h
    cases h
  | _ =>
    rw [hg] at h
    cases h
    exact Iff.rfl

/-- Who has received has left room in its own channel. -/
theorem not_full_of_receives (h : s.effect i env (s.goroutines i) = some t)
    (hreceives : s.receives i env = true) : ¬ (t.chan i).Full := by
  unfold receives at hreceives
  cases hg : s.goroutines i with
  | listenStatusInfo =>
    rw [hg] at h
    exact not_full_of_receive h
  | verify camera =>
    rw [hg] at h hreceives
    unfold effect at h
    rw [if_pos (of_decide_eq_true hreceives)] at h
    exact not_full_of_receive h
  | _ =>
    rw [hg] at hreceives
    cases hreceives

/-- What a goroutine that goes on does. -/
theorem move_go_cases (h : s.move (.go i env) = some t) :
    ∃ u, s.effect i env (s.goroutines i) = some u ∧ t.chan = u.chan ∧ t.started = s.started ∧
      t.goroutines = Function.update s.goroutines i (s.next i env (s.goroutines i)) := by
  unfold move at h
  dsimp only at h
  split_ifs at h
  obtain ⟨u, hu, rfl⟩ := Option.map_eq_some_iff.mp h
  exact ⟨u, hu, rfl, rfl, rfl⟩

/-- Besides its own, a goroutine fills the channel that it sends to. -/
theorem full_of_ne (h : s.move (.go i env) = some t) (hne : a ≠ i) :
    (t.chan a).Full ↔ s.load i a = 5 := by
  obtain ⟨u, hu, hchan, -, -⟩ := move_go_cases h
  unfold Chan.Full load
  rw [hchan, length_effect hu hne]

theorem moves_go (h : s.move (.go i env) = some t) : s.senders.Moves t.senders i := by
  obtain ⟨u, -, -, -, hgo⟩ := move_go_cases h
  have hne : ∀ k, k ≠ i → t.goroutines k = s.goroutines k := by
    intro k hk
    rw [hgo, Function.update_of_ne hk]
  constructor
  · intro k hk
    exact congrArg Goroutine.target (hne k hk)
  · intro k hk
    show (t.goroutines k).Lost ↔ (s.goroutines k).Lost
    rw [hne k hk]
  · intro a ha
    exact not_lost_of_target ha

/-- **A goroutine that goes on** leaves no sender that waits for ever exactly where it is calm. -/
theorem wedged_go_iff (hs : ¬ s.Wedged) (h : s.move (.go i env) = some t) :
    ¬ t.Wedged ↔ s.CalmGo i env := by
  obtain ⟨u, hu, hchan, -, hgo⟩ := move_go_cases h
  have hself : t.goroutines i = s.next i env (s.goroutines i) := by
    rw [hgo, Function.update_self]
  have hwedged := (moves_go h).wedged_iff hs
  constructor
  · intro hnot
    constructor
    · intro a ha htarget hload hlost
      refine hnot (hwedged.mpr (Or.inl ⟨a, ha, ?_, (full_of_ne h ha).mpr hload, hlost⟩))
      show (t.goroutines i).target = some a
      rw [hself, htarget]
    · intro hlost hreceives hfull k hk htarget
      refine hnot (hwedged.mpr (Or.inr (Or.inl ⟨?_, ?_, k, hk, htarget⟩)))
      · show (t.goroutines i).Lost
        rw [hself]
        exact hlost
      · show (t.chan i).Full
        rw [hchan]
        exact (full_effect_self hu hlost hreceives).mpr hfull
    · intro a k ha hk htarget htarget' hload hlost
      refine hnot (hwedged.mpr (Or.inr (Or.inr ⟨a, k, ha, hk, htarget',
        (full_of_ne h ha).mpr hload, ?_, hlost⟩)))
      intro hfull
      unfold load at hload
      rw [if_pos htarget] at hload
      have hlength : (s.chan a).buf.length = 5 := hfull
      omega
  · intro hcalm hw
    rcases hwedged.mp hw with ⟨a, ha, htarget, hfull, hlost⟩ | ⟨hlost, hfull, k, hk, htarget⟩ |
      ⟨a, k, ha, hk, htarget, hfull, hfull', hlost⟩
    · refine hcalm.comes a ha ?_ ((full_of_ne h ha).mp hfull) hlost
      rw [← hself]
      exact htarget
    · have hlost' : (s.next i env (s.goroutines i)).Lost := hself ▸ hlost
      have hfull' : (u.chan i).Full := hchan ▸ hfull
      rcases hreceives : s.receives i env with _ | _
      · exact hcalm.leaves hlost' hreceives ((full_effect_self hu hlost' hreceives).mp hfull') k hk
          htarget
      · exact not_full_of_receives hu hreceives hfull'
    · have hload := (full_of_ne h ha).mp hfull
      have hlength : (s.chan a).buf.length ≠ 5 := hfull'
      have htarget' : (s.goroutines i).target = some a := by
        by_contra hne
        unfold load at hload
        rw [if_neg hne] at hload
        exact hlength hload
      exact hcalm.fills a k ha hk htarget' htarget hload hlost

/-! ## Runs -/

/-- Goroutines are started one by one. -/
def Unstarted (s : State) : Prop := ∀ k, s.started ≤ k → s.goroutines k = .finished

theorem unstarted_move {act : Action} (hs : s.Unstarted) (h : s.move act = some t) :
    t.Unstarted := by
  intro k hk
  cases act with
  | event e =>
    cases h
    dsimp only at hk ⊢
    rw [Function.update_of_ne (by omega)]
    exact hs k (by omega)
  | go i env =>
    obtain ⟨u, hu, -, hstarted, hgo⟩ := move_go_cases h
    rw [hstarted] at hk
    have hne : k ≠ i := by
      rintro rfl
      rw [hs k hk] at hu
      cases hu
    rw [hgo, Function.update_of_ne hne]
    exact hs k hk

theorem target_handleDriverCharaTypeChange (uniqueName : String) (charaDelete : CharaType) :
    (Goroutine.handleDriverCharaTypeChange uniqueName charaDelete .finished).target = none := by
  unfold Goroutine.handleDriverCharaTypeChange
  split_ifs <;> rfl

/-- A goroutine starts without sending. -/
theorem target_goroutine (e : Event) : e.goroutine.target = none := by
  cases e with
  | charaTypeChanged uniqueName charaDelete =>
    exact target_handleDriverCharaTypeChange uniqueName charaDelete
  | _ => rfl

/-- An event leaves no sender that waits for ever. -/
theorem not_wedged_event {e : Event} (hstart : s.Unstarted) (hs : ¬ s.Wedged)
    (h : s.move (.event e) = some t) : ¬ t.Wedged := by
  cases h
  have hmoves : s.senders.Moves (State.senders { s with
      goroutines := Function.update s.goroutines s.started e.goroutine
      started := s.started + 1 }) s.started := by
    constructor
    · intro k hk
      exact congrArg Goroutine.target (Function.update_of_ne hk _ _)
    · intro k hk
      show (Function.update s.goroutines s.started e.goroutine k).Lost ↔ (s.goroutines k).Lost
      rw [Function.update_of_ne hk]
    · intro a ha
      exact not_lost_of_target ha
  intro hw
  rcases (hmoves.wedged_iff hs).mp hw with ⟨a, -, htarget, -⟩ | ⟨-, hfull, k, -, htarget⟩ |
    ⟨a, k, -, -, -, hfull, hfull', -⟩
  · have hnone : (Function.update s.goroutines s.started e.goroutine s.started).target = some a :=
      htarget
    rw [Function.update_self, target_goroutine] at hnone
    cases hnone
  · exact hs ⟨k, s.started, htarget, hfull, Or.inl (hstart s.started le_rfl)⟩
  · exact hfull' hfull

/-- **A step** leaves no sender that waits for ever exactly where it is calm. -/
theorem wedged_step_iff {act : Action} {u : Unit} (hstart : s.Unstarted) (hs : ¬ s.Wedged)
    (h : step s act = some (t, u)) : ¬ t.Wedged ↔ s.Calm act := by
  obtain ⟨t', ht', heq⟩ := Option.map_eq_some_iff.mp h
  cases heq
  cases act with
  | event e => exact iff_of_true (not_wedged_event hstart hs ht') trivial
  | go i env =>
    rw [wedged_go_iff hs ht']
    exact ⟨fun hcalm _ => hcalm, fun hcalm => hcalm (by rw [ht']; rfl)⟩

end

/-! ## Runs in which every sender finds room -/

section

variable {s t : State} {i a : ℕ} {env : Env} {g : Goroutine} {act : Action}

/-- A new action has an empty channel. -/
theorem length_genActionId_le (s : State) (env : Env) (sender : String) (actionType : ActionType)
    (charaType : CharaType) :
    ((s.genActionId i env sender actionType charaType).chan i).buf.length ≤
      (s.chan i).buf.length := by
  unfold genActionId
  split_ifs
  · unfold chan
    dsimp only
    rw [Function.update_self]
    exact Nat.zero_le _
  · exact le_rfl

theorem length_receive_le (h : s.receive i = some t) :
    (t.chan i).buf.length ≤ (s.chan i).buf.length := by
  obtain ⟨⟨o, c⟩, hr, rfl⟩ := Option.map_eq_some_iff.mp h
  rw [chan_setChan_self]
  exact Chan.length_recv_le (Attempt.done_of_toOption hr)

/-- A goroutine puts nothing into any channel, its own included, but what it sends. -/
theorem length_effect_le (h : s.effect i env g = some t) :
    (t.chan a).buf.length ≤ (s.chan a).buf.length + if g.target = some a then 1 else 0 := by
  by_cases ha : a = i
  · subst ha
    cases g with
    | sending mode pending next =>
      cases pending with
      | nil =>
        cases h
        exact Nat.le_add_right _ _
      | cons c pending =>
        obtain ⟨ch, hsend, rfl⟩ := Option.map_eq_some_iff.mp h
        have hbuf := (Chan.send_eq_done (Attempt.done_of_toOption hsend)).2.1
        show _ ≤ (s.chan a).buf.length + if some c.actionId = some a then 1 else 0
        by_cases hac : c.actionId = a
        · subst hac
          rw [if_pos rfl, chan_setChan_self, hbuf, List.length_append, List.length_singleton]
        · rw [if_neg fun h => hac (Option.some.inj h), chan_setChan_ne s ch (Ne.symm hac)]
          exact le_rfl
    | enrollActionId sender charaType =>
      cases h
      exact length_genActionId_le s env sender .enroll charaType
    | verifyActionId sender camera =>
      cases h
      exact length_genActionId_le s env sender .verify (cameraFlag camera)
    | listenStatusInfo => exact length_receive_le h
    | verify camera =>
      unfold effect at h
      split_ifs at h
      · exact length_receive_le h
      · cases h
        exact le_rfl
    | releasseActionId b next =>
      rw [buf_releasseActionId h]
      exact le_rfl
    | finished => cases h
    | _ =>
      cases h
      exact le_rfl
  · exact (length_effect h ha).le

/-- Whoever is at a channel finds room in it. -/
def Roomy (s : State) : Prop := ∀ k a, (s.goroutines k).target = some a → ¬ (s.chan a).Full

/-- **A step that finds room** leaves room to everybody who is at a channel. -/
theorem roomy_step {u : Unit} (hs : s.Roomy) (hroom : s.FindsRoom act)
    (h : step s act = some (t, u)) : t.Roomy := by
  obtain ⟨t', ht', heq⟩ := Option.map_eq_some_iff.mp h
  cases heq
  intro k a htarget
  cases act with
  | event e =>
    cases ht'
    dsimp only at htarget
    by_cases hk : k = s.started
    · subst hk
      rw [Function.update_self, target_goroutine] at htarget
      cases htarget
    · rw [Function.update_of_ne hk] at htarget
      exact hs k a htarget
  | go i env =>
    obtain ⟨w, hw, hchan, -, hgo⟩ := move_go_cases ht'
    intro hfull
    rw [hchan] at hfull
    -- the channel is full now, so the step has come to five codes
    have hload : ¬ s.load i a < 5 := by
      have hle : (w.chan a).buf.length ≤ s.load i a := length_effect_le hw
      have hlength : (w.chan a).buf.length = 5 := hfull
      omega
    rw [hgo] at htarget
    by_cases hk : k = i
    · subst hk
      rw [Function.update_self] at htarget
      exact hload (hroom.1 a htarget)
    · rw [Function.update_of_ne hk] at htarget
      by_cases hi : (s.goroutines i).target = some a
      · exact hload (hroom.2 a k hk hi htarget)
      · refine hload ?_
        have hnot := hs k a htarget
        have hbound := (s.chan a).bound
        unfold Chan.Full at hnot
        unfold load
        rw [if_neg hi]
        omega

/-- Where everybody finds room, nobody comes to the channel of one that is lost in vain. -/
theorem Roomy.calm (hs : s.Roomy) (hroom : s.FindsRoom act) : s.Calm act := by
  cases act with
  | event e => exact True.intro
  | go i env =>
    intro _
    constructor
    · intro a _ htarget hload
      exact absurd hload (hroom.1 a htarget).ne
    · intro _ _ hfull k _ htarget
      exact hs k i htarget hfull
    · intro a k _ hk htarget htarget' hload
      exact absurd hload (hroom.2 a k hk htarget htarget').ne

end

/-- **No sender waits for ever** in a run exactly where every step of it is calm; so in no run in
which whoever goes on finds room. -/
theorem never_wedged_iff (acts : List Action) :
    ((∀ cs (s : State) us, cs <+: acts → run step init cs = some (s, us) → ¬ s.Wedged) ↔
      Along step Calm init acts) ∧
    (Along step FindsRoom init acts →
      ∀ cs (s : State) us, cs <+: acts → run step init cs = some (s, us) → ¬ s.Wedged) := by
  have hiff : (∀ cs (s : State) us, cs <+: acts → run step init cs = some (s, us) → ¬ s.Wedged) ↔
      Along step Calm init acts := by
    refine reached_iff_along (J := Unstarted) (I := fun s : State => ¬ s.Wedged)
      ?_ ?_ ?_ ?_ ?_ acts
    · intro s act t u hs h
      obtain ⟨t', ht', heq⟩ := Option.map_eq_some_iff.mp h
      cases heq
      exact unstarted_move hs ht'
    · intro s act t u hstart hs h
      exact wedged_step_iff hstart hs h
    · intro s act h
      cases act with
      | event e => trivial
      | go i env =>
        intro hsome
        rw [Option.map_eq_none_iff.mp h] at hsome
        cases hsome
    · intro k _
      rfl
    · rintro ⟨k, a, htarget, -⟩
      cases htarget
  refine ⟨hiff, fun hroom => hiff.mpr ?_⟩
  refine hroom.of_invariant (fun _ _ _ _ => roomy_step) (fun _ _ hs hr => hs.calm hr) ?_
  intro k a htarget
  cases htarget

/-! ## Signals after the last one -/

/-- The driver of faces is found and answers well. -/
def goodEnv : Env := ⟨.listed _ _, true, none, true, false, some ":1.9", .codeStatusInfo⟩

/-- A goroutine goes on so many times. -/
def goes (n i : ℕ) : List Action := List.replicate n (.go i goodEnv)

/-- A client is verified; the driver says that it knows the face, and then six times that it sees
none. The transaction is not ended. -/
def signalAfterSuccess : List Action :=
  [.event (.verify ":1.1" .face)] ++ goes 4 0 ++
  [.event (.verifyStatus 0 0 "")] ++ goes 3 1 ++ goes 1 0 ++
  ((List.range 5).flatMap fun k => [.event (.verifyStatus 0 5 "")] ++ goes 3 (k + 2)) ++
  [.event (.verifyStatus 0 5 "")] ++ goes 1 7

/-- The last of the signals holds the mutex for ever. -/
theorem verify_wedges :
    ¬ ∀ (acts : List Action) (s : State) us, run step init acts = some (s, us) → ¬ s.Wedged := by
  intro hall
  obtain ⟨s, us, hr, htarget, hfull, hfinished⟩ : ∃ (s : State) (us : List Unit),
      run step init signalAfterSuccess = some (s, us) ∧ (s.goroutines 7).target = some 0 ∧
        (s.chan 0).buf.length = 5 ∧ s.goroutines 0 = .finished :=
    ⟨_, _, rfl, rfl, rfl, rfl⟩
  exact hall signalAfterSuccess s us hr ⟨7, 0, htarget, hfull, Or.inl hfinished⟩

end State

end LingmoAuthenticate.Chara.Signals
