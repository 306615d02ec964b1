import LingmoAuthenticate.Lib.Machine
import LingmoAuthenticate.Session.UKeyVerify
import LingmoAuthenticate.UKey.Manager
import LingmoAuthenticate.UKey.Services

/-!
# One verification at a time: `ukey/interface.go`

A device of single capability has its last verification ended when the next one is constructed. A
device is reached by the name of its service, or as the default device, in which case the name that
the caller gives is not looked at; and the verifications to end are those that were constructed with
the name of the call, whatever devices they have.

* `Verifications`: the manager with the devices.
* `constructVerification_eq`: what a call comes to that is answered with an id.
* `Named`: what is called by a name, has the device of that name. It holds in every run
  (`named_run`).
* `Forgets.run`: every run of it is one of other clients of the manager that a key transaction talks
  to, which leaves the devices out.
* `ends_last_iff`: a call ends the verifications of its device exactly where the name of the call
  and the device of the call tell the same verifications apart.
-/

namespace LingmoAuthenticate.UKey

open Lib AuthCommon
open MultiFactor (Dir DirEvent)

/-! ## The manager with its devices -/

/-- Source: `ukey/device.go`, `uKeyCapability`. -/
def capabilityMulti : ℤ := 1

/-- Source: `authcommon/ukey.go`, `UKeyStateDeviceVerifying`. -/
def uKeyStateDeviceVerifying : ℤ := 2

/-- Source: `authcommon/ukey.go`, `UKeyResType`. -/
inductive UKeyResType where
  | verifyFailed
  | verifySuccess
  deriving DecidableEq, Repr

/-- What is marshalled into the message of a result. Source: `authcommon/ukey.go`, `UKeyResult`. -/
structure UKeyResult where
  result : UKeyResType
  description : String
  id : String
  deriving DecidableEq, Repr

/-- The `VerifyResult` signal: the id of a verification and its message. -/
structure VerifyResult where
  id : String
  msg : UKeyResult
  deriving DecidableEq, Repr

/-- Source: `ukey/device.go`, `baseDevice`. -/
structure Device where
  serviceName : String
  id : String
  deriving DecidableEq, Repr

/-- Source: `ukey/manager.go`, `verificationInfo`. -/
structure DeviceInfo extends VerificationInfo where
  dev : Device
  deriving DecidableEq, Repr

/-- The manager: the last id, the services of the devices, and the verifications, each under its own
id (`id_eq`). Source: `ukey/manager.go`, `Manager`. -/
structure Verifications where
  id : ℕ
  services : Services
  infos : GoMap String DeviceInfo
  id_eq : ∀ id info, infos.lookup id = some info → info.id = id

/-- What a call finds outside of the manager: the orders of its loops, which services a device can
be made for, the users, and what the devices answer for their capability and their state. -/
structure CallEnv where
  order : GoMap.RangeOrder String InterfaceConfigWithFileName
  infoOrder : GoMap.RangeOrder String DeviceInfo
  newCommonDevice : InterfaceConfig → Except String Unit
  getUserInfo : String → Except String UserInfo
  capability : String → Except String ℤ
  state : String → Except String ℤ

namespace Services

/-- Source: `ukey/manager.go`, `Manager.getDefaultDevice`. -/
def getDefaultDevice (env : CallEnv) (s : Services) : Except String Device :=
  match (env.order.visit s.uKeyServiceMap.entries).find? fun e => e.2.service = s.defaultDevice with
  | some e => (env.newCommonDevice e.2.toInterfaceConfig).map fun _ => ⟨e.2.service, ""⟩
  | none => .error "empty default device"

/-- Source: `ukey/manager.go`, `Manager.getUKeyConfig`; with the fields that a device is made of. -/
def getUKeyConfig (env : CallEnv) (s : Services) (serviceName : String) : Option InterfaceConfig :=
  ((env.order.visit s.uKeyServiceMap.entries).find? fun e => e.2.service = serviceName).map
    fun e => e.2.toInterfaceConfig

/-- Source: `ukey/manager.go`, `Manager.newDevice`. -/
def newDevice (env : CallEnv) (s : Services) (serviceName : String) (useDefaultService : Bool) :
    Except String Device :=
  if useDefaultService then s.getDefaultDevice env
  else
    match s.getUKeyConfig env serviceName with
    | none => .error ("not found ukey service with " ++ serviceName)
    | some config => (env.newCommonDevice config).map fun _ => ⟨config.service, ""⟩

/-- **The device of a call** is that of the default service, or that of the name. -/
theorem newDevice_serviceName {env : CallEnv} {s : Services} {serviceName : String}
    {useDefaultService : Bool} {d : Device}
    (h : s.newDevice env serviceName useDefaultService = .ok d) :
    d.serviceName = if useDefaultService then s.defaultDevice else serviceName := by
  unfold newDevice at h
  split_ifs at h ⊢
  · unfold getDefaultDevice at h
    rcases hfind : (env.order.visit s.uKeyServiceMap.entries).find?
        (fun e => e.2.service = s.defaultDevice) with _ | e
    · rw [hfind] at h
      cases h
    · rw [hfind] at h
      dsimp only at h
      rcases hnew : env.newCommonDevice e.2.toInterfaceConfig with err | u
      · rw [hnew] at h
        cases h
      · rw [hnew] at h
        cases h
        simpa using List.find?_some hfind
  · unfold getUKeyConfig at h
    rcases hfind : (env.order.visit s.uKeyServiceMap.entries).find?
        (fun e => e.2.service = serviceName) with _ | e
    · rw [hfind] at h
      cases h
    · rw [hfind] at h
      dsimp only [Option.map_some] at h
      rcases hnew : env.newCommonDevice e.2.toInterfaceConfig with err | u
      · rw [hnew] at h
        cases h
      · rw [hnew] at h
        cases h
        simpa using List.find?_some hfind

end Services

namespace Verifications

/-- Source: `ukey/manager.go`, `newManager`, with the services that were loaded. -/
def new (services : Services) : Verifications := ⟨0, services, ∅, fun _ _ h => by simp at h⟩

/-- Source: `ukey/manager.go`, `Manager.genId`. -/
def genId (m : Verifications) : String := toString ((m.id + 1) % 2 ^ 64)

/-- A new verification, under its id, which is the next one. -/
def add (m : Verifications) (info : DeviceInfo) : Verifications where
  id := (m.id + 1) % 2 ^ 64
  services := m.services
  infos := m.infos.insert info.id info
  id_eq id info' h := by
    by_cases hne : id = info.id
    · rw [hne, AList.lookup_insert, Option.some.injEq] at h
      rw [hne, h]
    · rw [AList.lookup_insert_ne hne] at h
      exact m.id_eq id info' h

/-- Source: `ukey/manager.go`, `Manager.deleteVerificationInfo`. -/
def deleteVerificationInfo (m : Verifications) (id : String) : Verifications where
  id := m.id
  services := m.services
  infos := m.infos.erase id
  id_eq id' info h := by
    by_cases hne : id' = id
    · rw [hne, AList.lookup_erase] at h
      cases h
    · rw [AList.lookup_erase_ne hne] at h
      exact m.id_eq id' info h

/-- Source: `ukey/manager.go`, `Manager.selectVerificationInfos`. -/
def selectVerificationInfos (env : CallEnv) (m : Verifications) (fn : DeviceInfo → Bool) :
    List DeviceInfo :=
  ((env.infoOrder.visit m.infos).map Sigma.snd).filter fn

/-- Source: `ukey/manager.go`, `Manager.genUKeyVerifyMsg`. -/
def genUKeyVerifyMsg (uuid : String) (uKeyResult : UKeyResType) (description : String) :
    UKeyResult :=
  ⟨uKeyResult, description, uuid⟩

/-- A capability that is not known counts as that of one verification. -/
def singleCapability (env : CallEnv) (dev : Device) : Prop :=
  (env.capability dev.serviceName).toOption.getD 0 ≠ capabilityMulti

instance (env : CallEnv) (dev : Device) : Decidable (singleCapability env dev) :=
  inferInstanceAs (Decidable (_ ≠ _))

/-- Source: `ukey/common_device.go`, `commonDevice.isClaimed`. -/
def isClaimed (env : CallEnv) (dev : Device) : Prop :=
  (env.state dev.serviceName).toOption = some uKeyStateDeviceVerifying

instance (env : CallEnv) (dev : Device) : Decidable (isClaimed env dev) :=
  inferInstanceAs (Decidable (_ = _))

/-- The verifications that a call ends: those that were constructed with its name.
Source: `ukey/interface.go`, `Manager.ConstructVerification`. -/
def infoArray (env : CallEnv) (m : Verifications) (dev : Device) (serviceName : String) :
    List DeviceInfo :=
  if singleCapability env dev ∧ isClaimed env dev then
    m.selectVerificationInfos env fun v => v.serviceName = serviceName
  else []

/-- The signals that are sent come before the answer.
Source: `ukey/interface.go`, `Manager.ConstructVerification`. -/
def constructVerification (env : CallEnv) (m : Verifications) (serviceName username : String)
    (useDefaultService : Bool) : Verifications × List VerifyResult × Except String String :=
  match m.services.newDevice env serviceName useDefaultService with
  | .error err => (m, [], .error err)
  | .ok dev =>
      match env.getUserInfo username with
      | .error err => (m, [], .error err)
      | .ok userInfo =>
          let sent := (m.infoArray env dev serviceName).map fun info =>
            ⟨info.id, genUKeyVerifyMsg info.uuid .verifyFailed "verification terminated by next"⟩
          (m.add ⟨⟨m.genId, serviceName, useDefaultService, username, userInfo.uuid,
            userInfo.sessionPath⟩, { dev with id := m.genId }⟩, sent, .ok m.genId)

/-! ## What a call comes to -/

/-- **A call that is answered with an id** has found a device and the user. -/
theorem constructVerification_eq {env : CallEnv} {m m' : Verifications}
    {serviceName username id : String} {useDefaultService : Bool} {sent : List VerifyResult}
    (h : m.constructVerification env serviceName username useDefaultService = (m', sent, .ok id)) :
    ∃ dev userInfo, m.services.newDevice env serviceName useDefaultService = .ok dev ∧
      env.getUserInfo username = .ok userInfo ∧
      sent = (m.infoArray env dev serviceName).map (fun info =>
        ⟨info.id, genUKeyVerifyMsg info.uuid .verifyFailed "verification terminated by next"⟩) ∧
      id = m.genId ∧
      m' = m.add ⟨⟨m.genId, serviceName, useDefaultService, username, userInfo.uuid,
        userInfo.sessionPath⟩, { dev with id := m.genId }⟩ := by
  unfold constructVerification at h
  rcases hdev : m.services.newDevice env serviceName useDefaultService with err | dev
  · rw [hdev] at h
    cases h
  · rw [hdev] at h
    dsimp only at h
    rcases huser : env.getUserInfo username with err | userInfo
    · rw [huser] at h
      cases h
    · rw [huser] at h
      cases h
      exact ⟨dev, userInfo, rfl, rfl, rfl, rfl, rfl⟩

/-- A call that fails leaves the manager as it was, and sends nothing. -/
theorem constructVerification_error {env : CallEnv} {m m' : Verifications}
    {serviceName username err : String} {useDefaultService : Bool} {sent : List VerifyResult}
    (h : m.constructVerification env serviceName username useDefaultService =
      (m', sent, .error err)) : m' = m ∧ sent = [] := by
  unfold constructVerification at h
  rcases hdev : m.services.newDevice env serviceName useDefaultService with err' | dev
  · rw [hdev] at h
    cases h
    exact ⟨rfl, rfl⟩
  · rw [hdev] at h
    dsimp only at h
    rcases huser : env.getUserInfo username with err' | userInfo
    · rw [huser] at h
      cases h
      exact ⟨rfl, rfl⟩
    · rw [huser] at h
      cases h

/-- What a loop selects is what the map holds, whatever the order. -/
theorem mem_filter_visit {order : GoMap.RangeOrder String DeviceInfo} {m : Verifications}
    {fn : DeviceInfo → Bool} {v : DeviceInfo} :
    v ∈ ((order.visit m.infos).map Sigma.snd).filter fn ↔
      m.infos.lookup v.id = some v ∧ fn v = true := by
  have hranges := order.ranges m.infos
  simp only [List.mem_filter, List.mem_map]
  refine and_congr_left ?_
  intro _
  constructor
  · rintro ⟨⟨id, info⟩, hmem, rfl⟩
    have hlookup := hranges.mem_iff.mp hmem
    rw [← m.id_eq id info hlookup] at hlookup
    exact hlookup
  · intro h
    exact ⟨⟨v.id, v⟩, hranges.mem_iff.mpr h, rfl⟩

/-- What is selected is what the map holds. -/
theorem mem_selectVerificationInfos {env : CallEnv} {m : Verifications} {fn : DeviceInfo → Bool}
    {v : DeviceInfo} :
    v ∈ m.selectVerificationInfos env fn ↔ m.infos.lookup v.id = some v ∧ fn v = true :=
  mem_filter_visit

/-! ## Which verifications a call ends -/

/-- Every verification of the device is sent a failed result, and no verification of another one
is. -/
structure EndsLast (m : Verifications) (dev : Device) (sent : List VerifyResult) : Prop where
  ended : ∀ id v, m.infos.lookup id = some v → v.dev.serviceName = dev.serviceName →
    ∃ r ∈ sent, r.id = id ∧ r.msg.result = .verifyFailed
  spared : ∀ r ∈ sent, ∀ v, m.infos.lookup r.id = some v → v.dev.serviceName = dev.serviceName

/-- The results that are sent are failed ones, of the verifications with the name of the call. -/
theorem mem_sent_iff {env : CallEnv} {m m' : Verifications} {serviceName username id : String}
    {useDefaultService : Bool} {sent : List VerifyResult} {dev : Device}
    (hcall : m.constructVerification env serviceName username useDefaultService =
      (m', sent, .ok id))
    (hdev : m.services.newDevice env serviceName useDefaultService = .ok dev)
    (hsingle : singleCapability env dev) (hclaimed : isClaimed env dev) {r : VerifyResult} :
    r ∈ sent ↔ ∃ v, m.infos.lookup v.id = some v ∧ v.serviceName = serviceName ∧
      r = ⟨v.id, genUKeyVerifyMsg v.uuid .verifyFailed "verification terminated by next"⟩ := by
  obtain ⟨dev', userInfo, hdev', -, rfl, -, -⟩ := constructVerification_eq hcall
  obtain rfl : dev' = dev := Except.ok.inj (hdev'.symm.trans hdev)
  rw [infoArray, if_pos ⟨hsingle, hclaimed⟩]
  simp only [List.mem_map, mem_selectVerificationInfos, decide_eq_true_eq, and_assoc]
  constructor
  · rintro ⟨v, hv, hname, rfl⟩
    exact ⟨v, hv, hname, rfl⟩
  · rintro ⟨v, hv, hname, rfl⟩
    exact ⟨v, hv, hname, rfl⟩

/-- Where the name and the device tell the same verifications apart, the call ends the right
ones. -/
theorem endsLast_of_sameName {env : CallEnv} {m m' : Verifications}
    {serviceName username id : String} {useDefaultService : Bool} {sent : List VerifyResult}
    {dev : Device}
    (hcall : m.constructVerification env serviceName username useDefaultService =
      (m', sent, .ok id))
    (hdev : m.services.newDevice env serviceName useDefaultService = .ok dev)
    (hsingle : singleCapability env dev) (hclaimed : isClaimed env dev)
    (h : ∀ id v, m.infos.lookup id = some v →
      (v.serviceName = serviceName ↔ v.dev.serviceName = dev.serviceName)) :
    EndsLast m dev sent := by
  constructor
  · intro id v hv hservice
    have hid := m.id_eq id v hv
    refine ⟨⟨v.id, _⟩, (mem_sent_iff hcall hdev hsingle hclaimed).mpr
      ⟨v, ?_, (h id v hv).mpr hservice, rfl⟩, hid, rfl⟩
    rw [hid]
    exact hv
  · intro r hr v hv
    obtain ⟨w, hw, hname, rfl⟩ := (mem_sent_iff hcall hdev hsingle hclaimed).mp hr
    obtain rfl : w = v := Option.some.inj (hw.symm.trans hv)
    exact (h w.id w hw).mp hname

/-! ## What happens to a manager -/

/-- What happens to a manager: calls that write its map, and changes of its services and of the
default one. -/
inductive Action where
  | construct (env : CallEnv) (serviceName username : String) (useDefaultService : Bool)
  | stop (id : String)
  | setDefaultDevice (device : String)
  | services (services : Services)

/-- One action, and what is sent. -/
def step (m : Verifications) : Action → Option (Verifications × List VerifyResult)
  | .construct env serviceName username useDefaultService =>
      let r := m.constructVerification env serviceName username useDefaultService
      some (r.1, r.2.1)
  | .stop id => some (m.deleteVerificationInfo id, [])
  | .setDefaultDevice device =>
      some ({ m with services := (m.services.setDefaultDevice device).1 }, [])
  | .services services => some ({ m with services }, [])

/-! ## The manager without the devices -/

/-- The second manager has the same verifications, but for their devices, and has given out the same
ids. It is the one that the model of a key transaction talks to. -/
structure Forgets (m : Verifications) (n : Manager) : Prop where
  id : n.id = m.id
  lookup : ∀ id, n.verificationInfoMap.lookup id =
    (m.infos.lookup id).map DeviceInfo.toVerificationInfo

/-- Both have a new verification under the next id. -/
theorem Forgets.add {m : Verifications} {n : Manager} (h : m.Forgets n) (info : VerificationInfo)
    (dev : Device) (hid : info.id = m.genId) :
    (m.add ⟨info, dev⟩).Forgets
      { n.genId.1 with verificationInfoMap := n.verificationInfoMap.insert n.genId.2 info } := by
  have hnext : n.genId.2 = info.id := by rw [hid, Manager.genId, h.id, genId]
  refine ⟨congrArg (fun id => (id + 1) % 2 ^ 64) h.id, fun id => ?_⟩
  dsimp only [Verifications.add]
  rw [hnext]
  by_cases hne : id = info.id
  · rw [hne, AList.lookup_insert, AList.lookup_insert, Option.map_some]
  · rw [AList.lookup_insert_ne hne, AList.lookup_insert_ne hne]
    exact h.lookup id

/-- Both have a verification no longer. -/
theorem Forgets.delete {m : Verifications} {n : Manager} (h : m.Forgets n) (id : String) :
    (m.deleteVerificationInfo id).Forgets (n.deleteVerificationInfo id) := by
  refine ⟨h.id, fun id' => ?_⟩
  dsimp only [Verifications.deleteVerificationInfo, Manager.deleteVerificationInfo]
  by_cases hne : id' = id
  · rw [hne, AList.lookup_erase, AList.lookup_erase, Option.map_none]
  · rw [AList.lookup_erase_ne hne, AList.lookup_erase_ne hne]
    exact h.lookup id'

/-- The error of looking for the device of a call, if any. -/
def deviceErr (env : CallEnv) (m : Verifications) (serviceName : String)
    (useDefaultService : Bool) : Option String :=
  match m.services.newDevice env serviceName useDefaultService with
  | .error err => some err
  | .ok _ => none

/-- **A construction** is answered alike. -/
theorem Forgets.construct {m : Verifications} {n : Manager} (h : m.Forgets n) (env : CallEnv)
    (serviceName username : String) (useDefaultService : Bool) :
    (m.constructVerification env serviceName username useDefaultService).1.Forgets
        (n.constructVerification serviceName username useDefaultService
          (deviceErr env m serviceName useDefaultService) (env.getUserInfo username)).1 ∧
      (m.constructVerification env serviceName username useDefaultService).2.2 =
        (n.constructVerification serviceName username useDefaultService
          (deviceErr env m serviceName useDefaultService) (env.getUserInfo username)).2 := by
  unfold constructVerification deviceErr
  rcases m.services.newDevice env serviceName useDefaultService with err | dev
  · exact ⟨h, rfl⟩
  · dsimp only
    rcases env.getUserInfo username with err | userInfo
    · exact ⟨h, rfl⟩
    · have hnext : n.genId.2 = m.genId := by rw [Manager.genId, h.id, genId]
      dsimp only [Manager.constructVerification]
      rw [hnext]
      refine ⟨?_, rfl⟩
      have hadd := h.add ⟨m.genId, serviceName, useDefaultService, username, userInfo.uuid,
        userInfo.sessionPath⟩ { dev with id := m.genId } rfl
      rw [hnext] at hadd
      exact hadd

/-- **Each action** is at most one call of another client, and leaves the transaction alone. -/
theorem Forgets.step {m m' : Verifications} {w : Session.UKeyVerify} (h : m.Forgets w.manager)
    {a : Action} {sent : List VerifyResult} (hs : m.step a = some (m', sent)) :
    ∃ acts n, Lib.run Session.UKeyVerify.move w acts =
        some ({ w with manager := n }, acts.map fun _ => none) ∧ m'.Forgets n := by
  cases a with
  | construct env serviceName username useDefaultService =>
      cases hs
      exact ⟨[.otherConstruct serviceName username useDefaultService
        (deviceErr env m serviceName useDefaultService) (env.getUserInfo username)], _, rfl,
        (h.construct env serviceName username useDefaultService).1⟩
  | stop id =>
      cases hs
      exact ⟨[.otherStop id none], _, rfl, h.delete id⟩
  | setDefaultDevice device =>
      cases hs
      exact ⟨[], w.manager, rfl, h.id, h.lookup⟩
  | services services =>
      cases hs
      exact ⟨[], w.manager, rfl, h.id, h.lookup⟩

/-- **The runs of the manager with its devices** are runs of other clients beside a key
transaction. -/
theorem Forgets.run {m m' : Verifications} {w : Session.UKeyVerify} (h : m.Forgets w.manager)
    {acts : List Action} {sents : List (List VerifyResult)}
    (hr : Lib.run Verifications.step m acts = some (m', sents)) :
    ∃ others n, Lib.run Session.UKeyVerify.move w others =
        some ({ w with manager := n }, others.map fun _ => none) ∧ m'.Forgets n := by
  induction acts generalizing m w sents with
  | nil =>
      cases hr
      exact ⟨[], w.manager, rfl, h⟩
  | cons a acts ih =>
      obtain ⟨u, sent, sents', hs, hr', rfl⟩ := run_cons_eq_some.mp hr
      obtain ⟨others, n, hothers, hu⟩ := h.step hs
      obtain ⟨others', n', hothers', hm'⟩ := ih (w := { w with manager := n }) hu hr'
      refine ⟨others ++ others', n', ?_, hm'⟩
      rw [List.map_append]
      exact run_append.mpr ⟨_, _, _, hothers, hothers', rfl⟩

/-! ## Verifications that were constructed by a name -/

/-- A verification that was constructed by a name has the device of that name. -/
def Named (m : Verifications) : Prop :=
  ∀ id v, m.infos.lookup id = some v → v.useDefaultService = false →
    v.serviceName = v.dev.serviceName

/-- **Each action** keeps the names. -/
theorem Named.step {m m' : Verifications} (h : m.Named) {a : Action} {sent : List VerifyResult}
    (hs : m.step a = some (m', sent)) : m'.Named := by
  cases a with
  | construct env serviceName username useDefaultService =>
      rcases hr : m.constructVerification env serviceName username useDefaultService with
        ⟨m₁, sent₁, err | id⟩
      · simp only [Verifications.step, hr, Option.some.injEq, Prod.mk.injEq] at hs
        obtain ⟨rfl, -⟩ := hs
        rw [(constructVerification_error hr).1]
        exact h
      · simp only [Verifications.step, hr, Option.some.injEq, Prod.mk.injEq] at hs
        obtain ⟨rfl, -⟩ := hs
        obtain ⟨dev, userInfo, hdev, -, -, -, rfl⟩ := constructVerification_eq hr
        intro id' v hv hexplicit
        simp only [add] at hv
        by_cases hid : id' = m.genId
        · rw [hid, AList.lookup_insert, Option.some.injEq] at hv
          subst hv
          have hname := Services.newDevice_serviceName hdev
          rw [show useDefaultService = false from hexplicit] at hname
          exact hname.symm
        · rw [AList.lookup_insert_ne hid] at hv
          exact h id' v hv hexplicit
  | stop id =>
      cases hs
      intro id' v hv
      simp only [deleteVerificationInfo] at hv
      by_cases hid : id' = id
      · rw [hid, AList.lookup_erase] at hv
        cases hv
      · rw [AList.lookup_erase_ne hid] at hv
        exact h id' v hv
  | setDefaultDevice device =>
      cases hs
      exact h
  | services services =>
      cases hs
      exact h

/-- In every run of a new manager, the names are those of the devices. -/
theorem named_run {services : Services} {acts : List Action} {m : Verifications}
    {sents : List (List VerifyResult)} (hr : run step (new services) acts = some (m, sents)) :
    m.Named := by
  refine run_invariant_of_step (I := Named) (fun _ _ _ _ h hs => h.step hs) ?_ hr
  intro id v hv
  simp [new] at hv

/-- Where no default device is in use, the verifications that were constructed with the name of a
call by a name are those that have its device, after every run. -/
theorem sameName_of_named {services : Services} {acts : List Action} {m : Verifications}
    {sents : List (List VerifyResult)} (hr : run step (new services) acts = some (m, sents))
    (hexplicit : ∀ id v, m.infos.lookup id = some v → v.useDefaultService = false)
    {env : CallEnv} {serviceName : String} {dev : Device}
    (hdev : m.services.newDevice env serviceName false = .ok dev) {id : String} {v : DeviceInfo}
    (hv : m.infos.lookup id = some v) :
    v.serviceName = serviceName ↔ v.dev.serviceName = dev.serviceName := by
  have hname : dev.serviceName = serviceName := Services.newDevice_serviceName hdev
  rw [named_run hr id v hv (hexplicit id v hv), hname]

/-- **The last verification is ended**, and no other one, exactly where the verifications that were
constructed with the name of the call are those that have its device. So it is after every run where
no default device is in use. -/
theorem ends_last_iff {env : CallEnv} {m m' : Verifications} {serviceName username id : String}
    {useDefaultService : Bool} {sent : List VerifyResult} {dev : Device}
    (hcall : m.constructVerification env serviceName username useDefaultService =
      (m', sent, .ok id))
    (hdev : m.services.newDevice env serviceName useDefaultService = .ok dev)
    (hsingle : singleCapability env dev) (hclaimed : isClaimed env dev) :
    (EndsLast m dev sent ↔ ∀ id v, m.infos.lookup id = some v →
      (v.serviceName = serviceName ↔ v.dev.serviceName = dev.serviceName)) ∧
    ∀ services acts sents, run step (new services) acts = some (m, sents) →
      (∀ id v, m.infos.lookup id = some v → v.useDefaultService = false) →
        useDefaultService = false → EndsLast m dev sent := by
  have hsent := @mem_sent_iff env m m' serviceName username id useDefaultService sent dev hcall hdev
    hsingle hclaimed
  have hends := @endsLast_of_sameName env m m' serviceName username id useDefaultService sent dev
    hcall hdev hsingle hclaimed
  refine ⟨⟨?_, hends⟩, ?_⟩
  · intro h id v hv
    have hid := m.id_eq id v hv
    constructor
    · intro hname
      refine h.spared ⟨v.id, _⟩ (hsent.mpr ⟨v, ?_, hname, rfl⟩) v ?_
      · rw [hid]
        exact hv
      · rw [hid]
        exact hv
    · intro hservice
      obtain ⟨r, hr, hrid, -⟩ := h.ended id v hv hservice
      obtain ⟨w, hw, hname, rfl⟩ := hsent.mp hr
      -- one verification has the id
      rw [show w.id = id from hrid, hv, Option.some.injEq] at hw
      rw [hw, hname]
  · rintro services acts sents hr hexplicit rfl
    exact hends fun id v hv => sameName_of_named hr hexplicit hdev hv

/-! ## One device under two names -/

/-- One service, which is the default one. -/
def oneService : Services :=
  ⟨ServiceMap.empty.record ⟨⟨"com.lingmo.ukey", "/com/lingmo/ukey", "com.lingmo.ukey", 2, 1⟩,
    "/usr/share/deepin-authentication/interfaces/ukey.json"⟩, "com.lingmo.ukey"⟩

/-- The device of the service is of single capability, and is verifying. -/
def verifyingEnv : CallEnv where
  order := .listed _ _
  infoOrder := .listed _ _
  newCommonDevice _ := .ok ()
  getUserInfo username := .ok ⟨username, ""⟩
  capability _ := .ok 0
  state _ := .ok uKeyStateDeviceVerifying

/-- A verification of the service was constructed by its name. -/
def constructedByName : Verifications :=
  ((new oneService).constructVerification verifyingEnv "com.lingmo.ukey" "uos" false).1

/-- Two services, and the default one of them. -/
def twoServices : Services :=
  { oneService with
    uKeyServiceMap := oneService.uKeyServiceMap.record
      ⟨⟨"com.lingmo.usb", "/com/lingmo/usb", "com.lingmo.usb", 2, 1⟩,
        "/usr/share/deepin-authentication/interfaces/usb.json"⟩ }

/-- Each of them verifies. -/
def constructedTwo : Verifications :=
  (((new twoServices).constructVerification verifyingEnv "com.lingmo.ukey" "uos"
    false).1.constructVerification verifyingEnv "com.lingmo.usb" "uos" false).1

/-- The next verification of the first service ends the last one of it, and spares the other. -/
theorem ends_last_by_name : ∃ m' sent,
    constructedTwo.constructVerification verifyingEnv "com.lingmo.ukey" "uos" false =
        (m', sent, .ok "3") ∧ sent.map (·.id) = ["1"] ∧
      EndsLast constructedTwo ⟨"com.lingmo.ukey", ""⟩ sent := by
  obtain ⟨m', sent, hcall, hsent⟩ : ∃ m' sent,
      constructedTwo.constructVerification verifyingEnv "com.lingmo.ukey" "uos" false =
        (m', sent, .ok "3") ∧ sent.map (·.id) = ["1"] := ⟨_, _, rfl, rfl⟩
  have hdev : constructedTwo.services.newDevice verifyingEnv "com.lingmo.ukey" false =
      .ok ⟨"com.lingmo.ukey", ""⟩ := rfl
  refine ⟨m', sent, hcall, hsent, (ends_last_iff hcall hdev (by decide) (by decide)).1.mpr ?_⟩
  intro id v hv
  have hinfos : constructedTwo.infos = ((∅ : GoMap String DeviceInfo).insert "1"
      ⟨⟨"1", "com.lingmo.ukey", false, "uos", "uos", ""⟩, "com.lingmo.ukey", "1"⟩).insert "2"
        ⟨⟨"2", "com.lingmo.usb", false, "uos", "uos", ""⟩, "com.lingmo.usb", "2"⟩ := rfl
  rw [hinfos] at hv
  by_cases hsecond : id = "2"
  · rw [hsecond, AList.lookup_insert, Option.some.injEq] at hv
    rw [← hv]
  · rw [AList.lookup_insert_ne hsecond] at hv
    by_cases hfirst : id = "1"
    · rw [hfirst, AList.lookup_insert, Option.some.injEq] at hv
      rw [← hv]
    · rw [AList.lookup_insert_ne hfirst] at hv
      cases hv

/-- The next verification is constructed by the default device: the last one hears nothing. -/
theorem default_device_ends_nothing :
    ¬ ∀ (env : CallEnv) (m m' : Verifications) (serviceName username id : String)
        (useDefaultService : Bool) (sent : List VerifyResult) (dev : Device),
      m.constructVerification env serviceName username useDefaultService = (m', sent, .ok id) →
        m.services.newDevice env serviceName useDefaultService = .ok dev →
          singleCapability env dev → isClaimed env dev → EndsLast m dev sent := by
  intro hall
  have h := hall verifyingEnv constructedByName _ "" "uos" "2" true _ ⟨"com.lingmo.ukey", ""⟩ rfl
    rfl (by decide) (by decide)
  obtain ⟨r, hr, -⟩ := h.ended "1" _ rfl rfl
  cases hr

end Verifications

end LingmoAuthenticate.UKey
