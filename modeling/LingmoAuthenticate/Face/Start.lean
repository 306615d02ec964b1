import LingmoAuthenticate.Face.Manager
import LingmoAuthenticate.Task.Manager
import LingmoAuthenticate.UKey.Manager

/-!
# Starting an action of a camera: `face/manager_ifc.go`

An enrolment and a verification begin alike. A record of the caller is made under a new id, its
device is given handlers, the device is claimed, and a task waits for the loss of the name of the
client; then the camera is told to start. A stop takes all of it back. A start that fails returns
where it is.

* `start_refused`: a call that makes no record of its caller leaves everything as it was.
* `startDevice_cases`: what is left of a call that makes one, and when it goes well.
* `start_no_trace_iff`: a call that fails leaves no trace exactly where it made no record.
* `stopEnroll_startEnroll`, `stopVerify_startVerify`: a stop leaves no trace of a start that went
  well.
-/

namespace LingmoAuthenticate.Face

open Lib AuthCommon UKey

/-! ## The manager with its callers -/

/-- What a caller has begun. -/
inductive FaceAction where
  | enroll
  | verify
  deriving DecidableEq, Repr

/-- What the function of a task has captured. Source: `face/manager_ifc.go`, in
`Manager.StartEnroll` and `Manager.StartVerify`. -/
structure NameLostTask where
  action : FaceAction
  username : String
  deriving DecidableEq, Repr

/-- A caller, with the service of its device and the id that the device passes on.
Source: `face/manager.go`, `callerInfo`, and `face/common_device.go`, `commonDevice`. -/
structure CallerInfo where
  id : String
  sender : String
  username : String
  uuid : String
  serviceName : String
  shmSockPath : String
  shmKey : String
  shmSize : ℤ
  service : String
  invokeId : String
  deriving DecidableEq, Repr

/-- The callers, and those whose device has its handlers; the services that are claimed; and the
tasks, with the functions that were registered. Source: `face/manager.go`, `Manager`. -/
structure Manager where
  id : ℕ
  devices : Devices
  defaultService : String
  callInfoMap : GoMap String CallerInfo
  handlers : List String
  claimed : String → Bool
  tasks : Task.Manager
  fns : ℕ → Option NameLostTask

/-- What a call finds outside of the manager: whether the password is given, whether a device can be
made for a service, when it is asked for first and when it is asked for again, whether it can be
read if the device is claimed, the users, and what the device answers. A start that is not answered
in three seconds has no answer. -/
structure StartAnswers where
  checkAuth : String → String → Except String Unit
  newCommonDevice : InterfaceConfig → Except String Unit
  newCommonDeviceAgain : InterfaceConfig → Except String Unit
  readable : String → Bool
  getUserInfo : String → Except String UserInfo
  claim : String → Bool → Except String Unit
  startEnroll : String → String → String → Option (Except String Unit)
  startVerify : String → String → ℤ → Option (Except String Unit)
  getShareMemInfo : String → Except String (String × String × ℤ)

/-- Source: `authcommon/sync_call.go`, `SyncCallWithTimeout`. -/
def syncCallWithTimeout (answer : Option (Except String Unit)) : Except String Unit :=
  answer.getD (.error "timeout")

/-- Source: `face/manager_ifc.go`, `actionIdFaceEnroll`. -/
def actionIdFaceEnroll : String := "com.deepin.daemon.authenticate.Face.enroll"

namespace Manager

/-- The id of the next caller; a number of 64 bits is written with its sign.
Source: `face/manager.go`, `Manager.genCallerInfo`. -/
def newId (m : Manager) : String := toString ((m.id : ℤ).bmod (2 ^ 64))

/-- Source: `face/manager.go`, `Manager.genId`. -/
def genId (m : Manager) : Manager := { m with id := (m.id + 1) % 2 ^ 64 }

/-- The service of a new device. Source: `face/manager.go`, `Manager.newDevice`. -/
def newDevice (m : Manager) (newCommonDevice : InterfaceConfig → Except String Unit)
    (serviceName : String) : Except String String :=
  let serviceName := if serviceName = "" then m.defaultService else serviceName
  match m.devices.deviceMap.lookup serviceName with
  | none => .error ("get service config " ++ serviceName ++ " err: not found")
  | some serviceConfig =>
      (newCommonDevice serviceConfig.toInterfaceConfig).map fun _ => serviceConfig.service

/-- Source: `face/manager.go`, `Manager.isDeviceClaimed`. -/
def isDeviceClaimed (m : Manager) (env : StartAnswers) (serviceName : String) : Bool :=
  match m.newDevice env.newCommonDevice serviceName with
  | .error _ => true
  | .ok service => if env.readable service then m.claimed service else true

/-- A caller is written through its pointer. -/
def setCaller (m : Manager) (caller : CallerInfo) : Manager :=
  { m with callInfoMap := m.callInfoMap.insert caller.id caller }

/-- A number is given out, and its caller recorded. -/
def recorded (m : Manager) (caller : CallerInfo) : Manager := m.genId.setCaller caller

/-- The record of a caller. Source: `face/manager.go`, `Manager.genCallerInfo`. -/
def newCaller (m : Manager) (sender username serviceName : String) (userInfo : UserInfo)
    (service : String) : CallerInfo :=
  ⟨m.newId, sender, username, userInfo.uuid, serviceName, "", "", 0, service, ""⟩

/-- Source: `face/manager.go`, `Manager.genCallerInfo`. -/
def genCallerInfo (m : Manager) (env : StartAnswers) (sender username serviceName : String) :
    Manager × Except String CallerInfo :=
  match env.getUserInfo username with
  | .error err => (m.genId, .error err)
  | .ok userInfo =>
      match m.newDevice env.newCommonDeviceAgain serviceName with
      | .error err => (m.genId, .error err)
      | .ok service =>
          let caller := m.newCaller sender username serviceName userInfo service
          (m.recorded caller, .ok caller)

/-- Source: `face/common_device.go`, `commonDevice.devSelect`. -/
def devSelect (m : Manager) (caller : CallerInfo) : Manager :=
  { m with handlers := m.handlers ++ [caller.id] }

/-- Source: `face/common_device.go`, `commonDevice.devDeSelect`. -/
def devDeSelect (m : Manager) (caller : CallerInfo) : Manager :=
  { m with handlers := m.handlers.erase caller.id }

/-- A device that answers with an error is left as it was.
Source: `face/common_device.go`, `commonDevice.claim`. -/
def claim (m : Manager) (answer : String → Bool → Except String Unit) (caller : CallerInfo)
    (claimed : Bool) : Manager × Except String Unit :=
  match answer caller.service claimed with
  | .error err => (m, .error err)
  | .ok () => ({ m with claimed := Function.update m.claimed caller.service claimed }, .ok ())

/-- A task for the loss of a name, which does not block.
Source: `task/manager.go`, `Manager.AddSignalTask`. -/
def addSignalTask (m : Manager) (caller : CallerInfo) (task : NameLostTask) : Manager :=
  { m with
    tasks := m.tasks.addSignalTask "NameLost" caller.id true false
    fns := Function.update m.fns m.tasks.refs (some task) }

/-- Source: `task/manager.go`, `Manager.DelSignalTask`. -/
def delSignalTask (m : Manager) (id : String) : Manager :=
  { m with tasks := m.tasks.delSignalTask "NameLost" id }

/-- Source: `face/manager.go`, `Manager.deleteCallerInfo`. -/
def deleteCallerInfo (m : Manager) (id : String) : Manager :=
  { m with callInfoMap := m.callInfoMap.erase id }

/-- From the record of the caller on. An error comes with the id that is returned.
Source: `face/manager_ifc.go`, `Manager.StartEnroll` and `Manager.StartVerify`. -/
def startDevice (m : Manager) (env : StartAnswers) (task : NameLostTask)
    (invoke : CallerInfo → Option (Except String Unit)) (caller : CallerInfo) :
    Manager × Except (String × String) CallerInfo :=
  match (m.devSelect caller).claim env.claim caller true with
  | (m, .error err) => (m, .error (caller.id, err))
  | (m, .ok ()) =>
      let caller := { caller with invokeId := caller.id }
      let m := (m.addSignalTask caller task).setCaller caller
      match syncCallWithTimeout (invoke caller) with
      | .error err => (m, .error (caller.id, err))
      | .ok () => (m, .ok caller)

/-- What an enrolment and a verification have in common.
Source: `face/manager_ifc.go`, `Manager.StartEnroll` and `Manager.StartVerify`. -/
def start (m : Manager) (env : StartAnswers) (sender username serviceName : String)
    (action : FaceAction) (invoke : CallerInfo → Option (Except String Unit)) :
    Manager × Except (String × String) CallerInfo :=
  if m.isDeviceClaimed env serviceName then (m, .error ("", "device is claimed"))
  else
    match m.genCallerInfo env sender username serviceName with
    | (m, .error err) => (m, .error ("", err))
    | (m, .ok caller) => m.startDevice env ⟨action, username⟩ invoke caller

/-- The id and the error that are returned. Source: `face/manager_ifc.go`, `Manager.StartEnroll`. -/
def startEnroll (m : Manager) (env : StartAnswers) (sender username serviceName faceName : String) :
    Manager × String × Option String :=
  match env.checkAuth actionIdFaceEnroll sender with
  | .error err => (m, "", some err)
  | .ok () =>
      match m.start env sender username serviceName .enroll fun caller =>
        env.startEnroll caller.service caller.uuid faceName with
      | (m, .error (id, err)) => (m, id, some err)
      | (m, .ok caller) =>
          match env.getShareMemInfo caller.service with
          | .error err => (m, "", some err)
          | .ok (sockPath, key, size) =>
              (m.setCaller { caller with shmSockPath := sockPath, shmKey := key, shmSize := size },
                caller.id, none)

/-- Source: `face/manager_ifc.go`, `Manager.StartVerify`. -/
def startVerify (m : Manager) (env : StartAnswers) (sender username serviceName : String)
    (timeout : ℤ) : Manager × String × Option String :=
  match m.start env sender username serviceName .verify fun caller =>
    env.startVerify caller.service caller.uuid timeout with
  | (m, .error (id, err)) => (m, id, some err)
  | (m, .ok caller) => (m, caller.id, none)

/-- What the device answers to the stop itself is logged, and nothing more.
Source: `face/manager_ifc.go`, `Manager.StopEnroll` and `Manager.StopVerify`. -/
def stop (m : Manager) (claim : String → Bool → Except String Unit) (sender id : String) :
    Manager × Option String :=
  match m.callInfoMap.lookup id with
  | none => (m, some ("not found the information for " ++ id))
  | some caller =>
      if caller.sender ≠ sender then (m, some ("caller " ++ sender ++ " permission denied"))
      else
        match (((m.devDeSelect caller).deleteCallerInfo caller.id).delSignalTask caller.id).claim
          claim caller false with
        | (m, .error err) => (m, some err)
        | (m, .ok ()) => (m, none)

/-- Source: `face/manager_ifc.go`, `Manager.StopEnroll`. -/
def stopEnroll (m : Manager) (claim : String → Bool → Except String Unit) (sender id : String) :
    Manager × Option String :=
  m.stop claim sender id

/-- Source: `face/manager_ifc.go`, `Manager.StopVerify`. -/
def stopVerify (m : Manager) (claim : String → Bool → Except String Unit) (sender id : String) :
    Manager × Option String :=
  m.stop claim sender id

/-! ## What a call leaves -/

/-- What a start that goes well makes of the manager. -/
def started (m : Manager) (task : NameLostTask) (caller : CallerInfo) : Manager :=
  (({ m.devSelect caller with
    claimed := Function.update m.claimed caller.service true }).addSignalTask caller task).setCaller
      { caller with invokeId := caller.id }

/-- A call has left nothing: the callers, the tasks, the handlers and the claims are as they were,
and no later call finds a device claimed that was not. -/
structure NoTrace (m m' : Manager) : Prop where
  callInfoMap : m'.callInfoMap = m.callInfoMap
  tasks : ∀ signal id, m'.tasks.registered signal id = m.tasks.registered signal id
  handlers : m'.handlers = m.handlers
  claimed : m'.claimed = m.claimed
  later : ∀ env serviceName,
    m'.isDeviceClaimed env serviceName = m.isDeviceClaimed env serviceName

/-- Nothing stands under the next id: no call, no task that waits for its client to leave, and no
handler of signals. -/
structure Unused (m : Manager) : Prop where
  callInfoMap : m.newId ∉ m.callInfoMap
  tasks : m.tasks.registered "NameLost" m.newId = none
  handlers : m.newId ∉ m.handlers

/-- A record of the caller can be made: the device is not claimed, the user is known, and there is a
device of the service. -/
structure Admits (m : Manager) (env : StartAnswers) (username serviceName : String)
    (userInfo : UserInfo) (service : String) : Prop where
  free : m.isDeviceClaimed env serviceName = false
  user : env.getUserInfo username = .ok userInfo
  device : m.newDevice env.newCommonDeviceAgain serviceName = .ok service

section

variable {m m' : Manager} {env : StartAnswers} {sender username serviceName : String}
  {userInfo : UserInfo} {service : String} {action : FaceAction}
  {invoke : CallerInfo → Option (Except String Unit)}

theorem NoTrace.refl (m : Manager) : m.NoTrace m :=
  ⟨rfl, fun _ _ => rfl, rfl, rfl, fun _ _ => rfl⟩

/-- A number that is given out leaves nothing. -/
theorem noTrace_genId (m : Manager) : m.NoTrace m.genId :=
  ⟨rfl, fun _ _ => rfl, rfl, rfl, fun _ _ => rfl⟩

/-! ## A start -/

/-- **A call that makes no record of its caller** fails, and leaves nothing. -/
theorem start_refused
    (h : ∀ userInfo service, ¬ m.Admits env username serviceName userInfo service) :
    ∃ m' e, m.start env sender username serviceName action invoke = (m', .error e) ∧
      m.NoTrace m' := by
  unfold start
  by_cases hclaimed : m.isDeviceClaimed env serviceName = true
  · rw [if_pos hclaimed]
    exact ⟨m, _, rfl, .refl m⟩
  rw [if_neg hclaimed]
  unfold genCallerInfo
  rcases huser : env.getUserInfo username with err | userInfo
  · exact ⟨m.genId, _, rfl, m.noTrace_genId⟩
  rcases hdevice : m.newDevice env.newCommonDeviceAgain serviceName with err | service
  · exact ⟨m.genId, _, rfl, m.noTrace_genId⟩
  exact absurd ⟨Bool.eq_false_iff.mpr hclaimed, huser, hdevice⟩ (h userInfo service)

/-- **From the record on**, the device has its handlers, whatever comes. It goes well where the
device is claimed and starts. -/
theorem startDevice_cases (m : Manager) (task : NameLostTask) (caller : CallerInfo) :
    (∃ m' e, m.startDevice env task invoke caller = (m', .error e) ∧
      m'.handlers = m.handlers ++ [caller.id] ∧
      ¬ (env.claim caller.service true = .ok () ∧
        invoke { caller with invokeId := caller.id } = some (.ok ()))) ∨
    m.startDevice env task invoke caller =
        (m.started task caller, .ok { caller with invokeId := caller.id }) ∧
      env.claim caller.service true = .ok () ∧
        invoke { caller with invokeId := caller.id } = some (.ok ()) := by
  unfold startDevice claim
  rcases env.claim caller.service true with err | u
  · exact .inl ⟨_, _, rfl, rfl, fun h => by cases h.1⟩
  dsimp only
  rcases invoke { caller with invokeId := caller.id } with _ | err | u
  · exact .inl ⟨_, _, rfl, rfl, fun h => by cases h.2⟩
  · exact .inl ⟨_, _, rfl, rfl, fun h => by cases h.2⟩
  · exact .inr ⟨rfl, rfl, rfl⟩

/-- **A call that makes a record of its caller** goes on with it. -/
theorem start_admitted (h : m.Admits env username serviceName userInfo service) :
    m.start env sender username serviceName action invoke =
      (m.recorded (m.newCaller sender username serviceName userInfo service)).startDevice env
        ⟨action, username⟩ invoke (m.newCaller sender username serviceName userInfo service) := by
  unfold start genCallerInfo
  rw [if_neg (Bool.eq_false_iff.mp h.free), h.user]
  dsimp only
  rw [h.device]

/-! ## A start that fails -/

/-- The device does what an enrolment asks of it: it lets itself be claimed, starts to enrol the
face of the user under the name, and tells of its shared memory. -/
structure DeviceEnrolls (env : StartAnswers) (userInfo : UserInfo) (service faceName : String) :
    Prop where
  claim : env.claim service true = .ok ()
  start : env.startEnroll service userInfo.uuid faceName = some (.ok ())
  shareMem : ∃ info, env.getShareMemInfo service = .ok info

/-- The device does what a verification asks of it: it lets itself be claimed and starts to verify
the user, for the time that was asked for. -/
structure DeviceVerifies (env : StartAnswers) (userInfo : UserInfo) (service : String)
    (timeout : ℤ) : Prop where
  claim : env.claim service true = .ok ()
  start : env.startVerify service userInfo.uuid timeout = some (.ok ())

/-- What is left of a failed call is nothing: a property of what the call has come to. -/
def FailsClean (m : Manager) (r : Manager × String × Option String) : Prop :=
  ∀ m' id err, r = (m', id, some err) → m.NoTrace m'

/-- A call that has left handlers must not fail. -/
theorem failsClean_iff_of_handlers {r : Manager × String × Option String} {id : String}
    (h : r.1.handlers = m.handlers ++ [id]) : m.FailsClean r ↔ r.2.2 = none := by
  obtain ⟨m', id', err⟩ := r
  constructor
  · intro hclean
    rcases err with _ | err
    · rfl
    · have hsame := h.symm.trans (hclean m' id' err rfl).handlers
      exact absurd (List.append_right_eq_self.mp hsame) (List.cons_ne_nil id [])
  · rintro hnone m'' id'' err' ⟨⟩
    cases hnone

/-- A verification that makes a record of its caller. -/
theorem startVerify_admitted (h : m.Admits env username serviceName userInfo service)
    (timeout : ℤ) :
    (m.startVerify env sender username serviceName timeout).1.handlers = m.handlers ++ [m.newId] ∧
      ((m.startVerify env sender username serviceName timeout).2.2 = none ↔
        DeviceVerifies env userInfo service timeout) := by
  unfold startVerify
  rw [start_admitted h]
  rcases startDevice_cases _ _ _ with ⟨m', e, hresult, hhandlers, hnot⟩ | ⟨hresult, hclaim, hstart⟩
  · rw [hresult]
    exact ⟨hhandlers, iff_of_false (fun hnone => by cases hnone) fun hdevice =>
      hnot ⟨hdevice.claim, hdevice.start⟩⟩
  · rw [hresult]
    exact ⟨rfl, iff_of_true rfl ⟨hclaim, hstart⟩⟩

/-- An enrolment that makes a record of its caller. -/
theorem startEnroll_admitted (hauth : env.checkAuth actionIdFaceEnroll sender = .ok ())
    (h : m.Admits env username serviceName userInfo service) (faceName : String) :
    (m.startEnroll env sender username serviceName faceName).1.handlers =
        m.handlers ++ [m.newId] ∧
      ((m.startEnroll env sender username serviceName faceName).2.2 = none ↔
        DeviceEnrolls env userInfo service faceName) := by
  unfold startEnroll
  rw [hauth]
  dsimp only
  rw [start_admitted h]
  rcases startDevice_cases _ _ _ with ⟨m', e, hresult, hhandlers, hnot⟩ | ⟨hresult, hclaim, hstart⟩
  · rw [hresult]
    exact ⟨hhandlers, iff_of_false (fun hnone => by cases hnone) fun hdevice =>
      hnot ⟨hdevice.claim, hdevice.start⟩⟩
  · rw [hresult]
    dsimp only [newCaller]
    rcases hshare : env.getShareMemInfo service with err | info
    · refine ⟨rfl, iff_of_false (fun hnone => by cases hnone) fun hdevice => ?_⟩
      obtain ⟨info, hinfo⟩ := hdevice.shareMem
      cases hshare.symm.trans hinfo
    · exact ⟨rfl, iff_of_true rfl ⟨hclaim, hstart, info, hshare⟩⟩

/-- What is common to both: a call that makes a record leaves handlers, and goes well where the
device does as it is asked (`P`); a call that makes none fails clean. -/
theorem failsClean_iff {r : Manager × String × Option String} {P : UserInfo → String → Prop}
    (hadmitted : ∀ userInfo service, m.Admits env username serviceName userInfo service →
      r.1.handlers = m.handlers ++ [m.newId] ∧ (r.2.2 = none ↔ P userInfo service))
    (hrefused : (∀ userInfo service, ¬ m.Admits env username serviceName userInfo service) →
      m.FailsClean r) :
    m.FailsClean r ↔ ∀ userInfo service, m.Admits env username serviceName userInfo service →
      P userInfo service := by
  constructor
  · intro hclean userInfo service hadmits
    obtain ⟨hhandlers, hresult⟩ := hadmitted userInfo service hadmits
    exact hresult.mp ((failsClean_iff_of_handlers hhandlers).mp hclean)
  · intro h
    by_cases hadmits : ∃ userInfo service, m.Admits env username serviceName userInfo service
    · obtain ⟨userInfo, service, hadmits⟩ := hadmits
      obtain ⟨hhandlers, hresult⟩ := hadmitted userInfo service hadmits
      exact (failsClean_iff_of_handlers hhandlers).mpr (hresult.mpr (h userInfo service hadmits))
    · exact hrefused fun userInfo service hadmits' => hadmits ⟨userInfo, service, hadmits'⟩

/-- **A verification that fails** leaves no trace exactly where it made no record of its caller. -/
theorem startVerify_clean_iff (timeout : ℤ) :
    m.FailsClean (m.startVerify env sender username serviceName timeout) ↔
      ∀ userInfo service, m.Admits env username serviceName userInfo service →
        DeviceVerifies env userInfo service timeout := by
  refine failsClean_iff (P := fun userInfo service => DeviceVerifies env userInfo service timeout)
    (fun _ _ hadmits => startVerify_admitted hadmits timeout) fun hnone => ?_
  unfold startVerify
  obtain ⟨m₁, e, hstart, hclean⟩ := start_refused hnone
  rw [hstart]
  rintro m' id err ⟨⟩
  exact hclean

/-- **An enrolment that fails** likewise, if the password is given. -/
theorem startEnroll_clean_iff (faceName : String) :
    m.FailsClean (m.startEnroll env sender username serviceName faceName) ↔
      (env.checkAuth actionIdFaceEnroll sender = .ok () →
        ∀ userInfo service, m.Admits env username serviceName userInfo service →
          DeviceEnrolls env userInfo service faceName) := by
  by_cases hauth : env.checkAuth actionIdFaceEnroll sender = .ok ()
  · rw [forall_prop_of_true hauth]
    refine failsClean_iff (P := fun userInfo service =>
      DeviceEnrolls env userInfo service faceName)
      (fun _ _ hadmits => startEnroll_admitted hauth hadmits faceName) fun hnone => ?_
    unfold startEnroll
    obtain ⟨m₁, e, hstart, hclean⟩ := start_refused hnone
    rw [hauth, hstart]
    rintro m' id err ⟨⟩
    exact hclean
  · refine iff_of_true ?_ fun h => absurd h hauth
    unfold startEnroll
    rcases hcheck : env.checkAuth actionIdFaceEnroll sender with err | u
    · rintro m' id err ⟨⟩
      exact .refl m
    · exact absurd hcheck hauth

/-- **A start that fails leaves no trace** exactly where it makes no record of its caller: where it
makes one, the device must be claimed and start, and for an enrolment share its memory. -/
theorem start_no_trace_iff (m : Manager) (env : StartAnswers)
    (sender username serviceName faceName : String) (timeout : ℤ) :
    (m.FailsClean (m.startEnroll env sender username serviceName faceName) ↔
      (env.checkAuth actionIdFaceEnroll sender = .ok () →
        ∀ userInfo service, m.Admits env username serviceName userInfo service →
          DeviceEnrolls env userInfo service faceName)) ∧
    (m.FailsClean (m.startVerify env sender username serviceName timeout) ↔
      ∀ userInfo service, m.Admits env username serviceName userInfo service →
        DeviceVerifies env userInfo service timeout) :=
  ⟨startEnroll_clean_iff faceName, startVerify_clean_iff timeout⟩

/-! ## A start that goes well, and its stop -/

/-- What a start that goes well has made of the manager, for its caller: the call stands under the
next id, with a handler and a task for the case that the client leaves, and the device is
claimed. -/
structure Begun (m m' : Manager) (caller : CallerInfo) : Prop where
  id : caller.id = m.newId
  callInfoMap : m'.callInfoMap = m.callInfoMap.insert m.newId caller
  handlers : m'.handlers = m.handlers ++ [m.newId]
  claimed : m'.claimed = Function.update m.claimed caller.service true
  tasks : m'.tasks = m.tasks.addSignalTask "NameLost" m.newId true false
  devices : m'.devices = m.devices
  defaultService : m'.defaultService = m.defaultService

/-- A device is made for the service that the table has under the name. -/
theorem newDevice_eq_ok {newCommonDevice : InterfaceConfig → Except String Unit}
    (h : m.newDevice newCommonDevice serviceName = .ok service) :
    (m.devices.deviceMap.lookup (if serviceName = "" then m.defaultService else serviceName)).map
      (fun config => config.service) = some service := by
  unfold newDevice at h
  dsimp only at h
  rcases hconfig : m.devices.deviceMap.lookup
    (if serviceName = "" then m.defaultService else serviceName) with _ | serviceConfig
  · rw [hconfig] at h
    cases h
  · rw [hconfig] at h
    dsimp only at h
    rcases hnew : newCommonDevice serviceConfig.toInterfaceConfig with err | u
    · rw [hnew] at h
      cases h
    · rw [hnew] at h
      cases h
      rfl

/-- The device of a call that is let in was not claimed. -/
theorem Admits.not_claimed (h : m.Admits env username serviceName userInfo service) :
    m.claimed service = false := by
  have hfree := h.free
  unfold isDeviceClaimed at hfree
  rcases hdevice : m.newDevice env.newCommonDevice serviceName with err | service'
  · rw [hdevice] at hfree
    cases hfree
  · rw [hdevice] at hfree
    dsimp only at hfree
    have hsame := (newDevice_eq_ok h.device).symm.trans (newDevice_eq_ok hdevice)
    rw [Option.some.inj hsame]
    split_ifs at hfree
    exact hfree

/-- A start that goes well was let in, and is begun. -/
theorem start_begun {c : CallerInfo}
    (hok : m.start env sender username serviceName action invoke = (m', .ok c)) :
    ∃ userInfo service, m.Admits env username serviceName userInfo service ∧ m.Begun m' c ∧
      c.sender = sender ∧ c.service = service := by
  by_cases hadmits : ∃ userInfo service, m.Admits env username serviceName userInfo service
  · obtain ⟨userInfo, service, hadmits⟩ := hadmits
    rw [start_admitted hadmits] at hok
    rcases startDevice_cases _ _ _ with ⟨m₁, e, hresult, -, -⟩ | ⟨hresult, -, -⟩
    · rw [hresult] at hok
      cases hok
    · rw [hresult, Prod.mk.injEq, Except.ok.injEq] at hok
      obtain ⟨rfl, rfl⟩ := hok
      exact ⟨userInfo, service, hadmits,
        ⟨rfl, AList.insert_insert _, rfl, rfl, rfl, rfl, rfl⟩, rfl, rfl⟩
  · obtain ⟨m₁, e, hstart, -⟩ := start_refused
      fun userInfo service hadmits' => hadmits ⟨userInfo, service, hadmits'⟩
    rw [hstart] at hok
    cases hok

/-- A verification that goes well. -/
theorem startVerify_begun {id : String} {timeout : ℤ}
    (hok : m.startVerify env sender username serviceName timeout = (m', id, none)) :
    ∃ userInfo service caller, m.Admits env username serviceName userInfo service ∧
      m.Begun m' caller ∧ id = m.newId ∧ caller.sender = sender ∧ caller.service = service := by
  unfold startVerify at hok
  rcases hstart : m.start env sender username serviceName .verify (fun caller =>
    env.startVerify caller.service caller.uuid timeout) with ⟨m₁, e | c⟩
  · rw [hstart] at hok
    cases hok
  · rw [hstart] at hok
    cases hok
    obtain ⟨userInfo, service, hadmits, hbegun, hsender, hservice⟩ := start_begun hstart
    exact ⟨userInfo, service, c, hadmits, hbegun, hbegun.id, hsender, hservice⟩

/-- An enrolment that goes well, with the shared memory of the device. -/
theorem startEnroll_begun {id faceName : String}
    (hok : m.startEnroll env sender username serviceName faceName = (m', id, none)) :
    ∃ userInfo service caller, m.Admits env username serviceName userInfo service ∧
      m.Begun m' caller ∧ id = m.newId ∧ caller.sender = sender ∧ caller.service = service := by
  unfold startEnroll at hok
  rcases hauth : env.checkAuth actionIdFaceEnroll sender with err | u
  · rw [hauth] at hok
    cases hok
  rw [hauth] at hok
  dsimp only at hok
  rcases hstart : m.start env sender username serviceName .enroll (fun caller =>
    env.startEnroll caller.service caller.uuid faceName) with ⟨m₁, e | c⟩
  · rw [hstart] at hok
    cases hok
  rw [hstart] at hok
  dsimp only at hok
  rcases hshare : env.getShareMemInfo c.service with err | ⟨sockPath, key, size⟩
  · rw [hshare] at hok
    cases hok
  rw [hshare] at hok
  cases hok
  obtain ⟨userInfo, service, hadmits, hbegun, hsender, hservice⟩ := start_begun hstart
  refine ⟨userInfo, service, { c with shmSockPath := sockPath, shmKey := key, shmSize := size },
    hadmits, ⟨hbegun.id, ?_, hbegun.handlers, hbegun.claimed, hbegun.tasks, hbegun.devices,
      hbegun.defaultService⟩, hbegun.id, hsender, hservice⟩
  show m₁.callInfoMap.insert c.id
    { c with shmSockPath := sockPath, shmKey := key, shmSize := size } = _
  rw [hbegun.callInfoMap, hbegun.id, AList.insert_insert]

/-- **A stop** takes back what a start has made, if the device lets itself be released. -/
theorem stop_begun {caller : CallerInfo} {claim : String → Bool → Except String Unit}
    (h : m.Begun m' caller) (hunused : m.Unused) (hfree : m.claimed caller.service = false)
    (hclaim : claim caller.service false = .ok ()) :
    ∃ m'', m'.stop claim caller.sender m.newId = (m'', none) ∧ m.NoTrace m'' := by
  have hlookup : m'.callInfoMap.lookup m.newId = some caller := by
    rw [h.callInfoMap]
    exact AList.lookup_insert _
  unfold stop
  rw [hlookup]
  dsimp only
  rw [if_neg (not_not_intro rfl), Manager.claim, hclaim]
  refine ⟨_, rfl, ?_⟩
  have hclaimed : Function.update m'.claimed caller.service false = m.claimed := by
    rw [h.claimed, Function.update_idem, ← hfree, Function.update_eq_self]
  have hmap : m'.callInfoMap.erase caller.id = m.callInfoMap := by
    rw [h.callInfoMap, h.id]
    exact GoMap.erase_insert_of_notMem _ hunused.callInfoMap
  refine ⟨hmap, ?_, ?_, hclaimed, ?_⟩
  · intro signal id
    show (m'.tasks.delSignalTask "NameLost" caller.id).registered signal id = _
    rw [h.tasks, h.id, Task.Manager.registered_delSignalTask, Task.Manager.registered_addSignalTask]
    by_cases hid : signal = "NameLost" ∧ id = m.newId
    · rw [if_pos hid, hid.1, hid.2]
      exact hunused.tasks.symm
    · rw [if_neg hid, if_neg fun h => hid h.2]
  · show m'.handlers.erase caller.id = m.handlers
    rw [h.handlers, h.id, List.erase_append_right _ hunused.handlers, List.erase_cons_head,
      List.append_nil]
  · intro env' serviceName'
    unfold isDeviceClaimed newDevice
    dsimp only [devDeSelect, deleteCallerInfo, delSignalTask]
    rw [h.devices, h.defaultService, hclaimed]

/-- **A stop leaves no trace** of an enrolment that went well. -/
theorem stopEnroll_startEnroll {id faceName : String}
    {claim : String → Bool → Except String Unit} (hunused : m.Unused)
    (hok : m.startEnroll env sender username serviceName faceName = (m', id, none))
    (hclaim : ∀ service, claim service false = .ok ()) :
    ∃ m'', m'.stopEnroll claim sender id = (m'', none) ∧ m.NoTrace m'' := by
  obtain ⟨userInfo, service, caller, hadmits, hbegun, hid, hsender, rfl⟩ := startEnroll_begun hok
  rw [hid, ← hsender]
  exact stop_begun hbegun hunused hadmits.not_claimed (hclaim _)

/-- **A stop leaves no trace** of a verification that went well. -/
theorem stopVerify_startVerify {id : String} {timeout : ℤ}
    {claim : String → Bool → Except String Unit} (hunused : m.Unused)
    (hok : m.startVerify env sender username serviceName timeout = (m', id, none))
    (hclaim : ∀ service, claim service false = .ok ()) :
    ∃ m'', m'.stopVerify claim sender id = (m'', none) ∧ m.NoTrace m'' := by
  obtain ⟨userInfo, service, caller, hadmits, hbegun, hid, hsender, rfl⟩ := startVerify_begun hok
  rw [hid, ← hsender]
  exact stop_begun hbegun hunused hadmits.not_claimed (hclaim _)

end

/-- One camera, and no caller. -/
def oneCamera : Manager where
  id := 0
  devices := ⟨ServiceMap.empty.record ⟨⟨"com.lingmo.face", "/com/lingmo/face", "com.lingmo.face",
    4, 1⟩, "/usr/share/deepin-authentication/interfaces/face.json"⟩, []⟩
  defaultService := "com.lingmo.face"
  callInfoMap := ∅
  handlers := []
  claimed _ := false
  tasks := .new
  fns _ := none

/-- The camera lets itself be claimed, and does not answer when it is to start. -/
def silentCamera : StartAnswers where
  checkAuth _ _ := .ok ()
  newCommonDevice _ := .ok ()
  newCommonDeviceAgain _ := .ok ()
  readable _ := true
  getUserInfo username := .ok ⟨username, ""⟩
  claim _ _ := .ok ()
  startEnroll _ _ _ := none
  startVerify _ _ _ := none
  getShareMemInfo _ := .ok ("", "", 0)

/-- The verification fails, and the next one is told that the camera is claimed; a stop would have
taken back all that the start had made. -/
theorem start_leaves_claim :
    (¬ ∀ (m : Manager) (env : StartAnswers) (sender username serviceName faceName : String)
        (timeout : ℤ), m.FailsClean (m.startEnroll env sender username serviceName faceName) ∧
      m.FailsClean (m.startVerify env sender username serviceName timeout)) ∧
    ∀ (m : Manager) (env : StartAnswers) (sender username serviceName faceName : String)
        (timeout : ℤ) (claim : String → Bool → Except String Unit),
      m.Unused → (∀ service, claim service false = .ok ()) →
        (∀ m' id, m.startEnroll env sender username serviceName faceName = (m', id, none) →
          ∃ m'', m'.stopEnroll claim sender id = (m'', none) ∧ m.NoTrace m'') ∧
        ∀ m' id, m.startVerify env sender username serviceName timeout = (m', id, none) →
          ∃ m'', m'.stopVerify claim sender id = (m'', none) ∧ m.NoTrace m'' := by
  constructor
  · intro hall
    obtain ⟨m', id, hfails, hclaimed⟩ : ∃ m' id,
        oneCamera.startVerify silentCamera ":1.5" "uos" "com.lingmo.face" 10 =
          (m', id, some "timeout") ∧
        m'.isDeviceClaimed silentCamera "com.lingmo.face" = true := ⟨_, _, rfl, rfl⟩
    have h := (hall oneCamera silentCamera ":1.5" "uos" "com.lingmo.face" "" 10).2 m' id "timeout"
      hfails
    have hlater := h.later silentCamera "com.lingmo.face"
    rw [hclaimed] at hlater
    exact absurd hlater (by decide)
  · intro m env sender username serviceName faceName timeout claim hunused hclaim
    exact ⟨fun m' id hok => stopEnroll_startEnroll hunused hok hclaim,
      fun m' id hok => stopVerify_startVerify hunused hok hclaim⟩

end Manager

end LingmoAuthenticate.Face
