import Mathlib.Data.List.Count
import LingmoAuthenticate.UKey.Single

/-!
# Notifications of the state of a key: `ukey/common_device.go` and `ukey/manager.go`

The device of every verification has handlers of its own from its construction to its stop, or until
the name of its service is lost. Each of them that hears of a new state tells all verifications of
the service. A name that is lost or comes back is heard of once, and each verification is told of it
once.

* `Notifier.move`: what a call or an event does, and which signals are sent.
* `due`: how often a signal is due. Who is told of a name that comes back is who was told that it
  was lost, and has not been stopped.
* `Marked`: the marks of the manager say who was told of the loss of which service.
* `notify_iff`: every signal is sent as often as it is due in a run exactly where, whenever a state
  changes, one device of the service has its handlers, or there is no verification of it.
-/

namespace LingmoAuthenticate.UKey

open Lib

/-! ## The manager with its handlers -/

/-- Source: `authcommon/ukey.go`, `UKeyStateDeviceOk`. -/
def uKeyStateDeviceOk : ℤ := 1

/-- Source: `authcommon/ukey.go`, `UKeyStateDeviceNotExist`. -/
def uKeyStateDeviceNotExist : ℤ := 3

/-- The `State` signal of `Manager`: the id of a verification, and the state of its device as a
number. Source: `ukey/manager.go`. -/
structure StateSignal where
  id : String
  state : ℤ
  deriving DecidableEq, Repr

namespace Verifications

/-- The service of the device of a verification. -/
def serviceOf (m : Verifications) (id : String) : Option String :=
  (m.infos.lookup id).map fun v => v.dev.serviceName

/-- The verifications whose device is of a service, in the order of a loop. -/
def infosOf (m : Verifications) (order : GoMap.RangeOrder String DeviceInfo) (service : String) :
    List DeviceInfo :=
  ((order.visit m.infos).map Sigma.snd).filter fun v => v.dev.serviceName = service

/-- What the loop comes to. -/
theorem mem_infosOf {m : Verifications} {order : GoMap.RangeOrder String DeviceInfo}
    {service id : String} :
    id ∈ (m.infosOf order service).map (fun v => v.id) ↔ m.serviceOf id = some service := by
  unfold infosOf serviceOf
  rw [List.mem_map, Option.map_eq_some_iff]
  constructor
  · rintro ⟨v, hv, rfl⟩
    obtain ⟨hlookup, hservice⟩ := mem_filter_visit.mp hv
    exact ⟨v, hlookup, of_decide_eq_true hservice⟩
  · rintro ⟨v, hv, hservice⟩
    have hid := m.id_eq id v hv
    refine ⟨v, mem_filter_visit.mpr ⟨?_, decide_eq_true hservice⟩, hid⟩
    rw [hid]
    exact hv

/-- The loop comes to each verification of the service once. -/
theorem count_infosOf (m : Verifications) (order : GoMap.RangeOrder String DeviceInfo)
    (service id : String) :
    ((m.infosOf order service).map fun v => v.id).count id =
      if m.serviceOf id = some service then 1 else 0 := by
  have hranges := order.ranges m.infos
  have hkeys : ((order.visit m.infos).map Sigma.snd).map (fun v => v.id) =
      (order.visit m.infos).map Sigma.fst := by
    rw [List.map_map]
    exact List.map_congr_left fun e he => m.id_eq e.1 e.2 (hranges.mem_iff.mp he)
  have hnd : ((m.infosOf order service).map fun v => v.id).Nodup := by
    refine List.Nodup.sublist (List.Sublist.map _ List.filter_sublist) ?_
    rw [hkeys]
    exact hranges.nodup
  rw [hnd.count]
  exact if_congr mem_infosOf rfl rfl

end Verifications

/-- The verifications, the devices that have their handlers, and the services that were lost, by the
verifications that were told. Source: `ukey/manager.go`, `Manager`. -/
structure Notifier where
  verifications : Verifications
  selected : List Device
  quitServiceMap : GoMap String String

/-- What happens: a call that writes the map of the verifications, or changes the services; the
state of a device changes, to a value that comes with the signal or not; a name has a new owner. -/
inductive NotifyAction where
  | call (a : Verifications.Action)
  | stateChanged (service : String) (hasValue : Bool) (state : ℤ)
      (order : GoMap.RangeOrder String DeviceInfo)
  | nameOwnerChanged (name oldOwner newOwner : String)
      (order : GoMap.RangeOrder String DeviceInfo) (marks : GoMap.RangeOrder String String)

namespace Notifier

/-- A device is selected when its verification is constructed, and deselected when it is stopped.
Source: `ukey/interface.go`, `Manager.ConstructVerification` and `Manager.StopVerify`. -/
def call (n : Notifier) : Verifications.Action → Notifier
  | .construct env serviceName username useDefaultService =>
      match n.verifications.constructVerification env serviceName username useDefaultService with
      | (verifications, _, .ok id) => { n with
          verifications
          selected := n.selected ++
            ((verifications.infos.lookup id).map fun v => v.dev).toList }
      | (verifications, _, .error _) => { n with verifications }
  | .stop id =>
      { verifications := n.verifications.deleteVerificationInfo id
        selected := match n.verifications.infos.lookup id with
          | some info => n.selected.erase info.dev
          | none => n.selected
        quitServiceMap := n.quitServiceMap.erase id }
  | .setDefaultDevice device => { n with
      verifications := { n.verifications with
        services := (n.verifications.services.setDefaultDevice device).1 } }
  | .services services => { n with verifications := { n.verifications with services } }

/-- Each handler of the service tells all verifications of it.
Source: `ukey/common_device.go`, `commonDevice.listenStatePropChanged`. -/
def listenStatePropChanged (n : Notifier) (service : String) (hasValue : Bool) (state : ℤ)
    (order : GoMap.RangeOrder String DeviceInfo) : List StateSignal :=
  (n.selected.filter fun dev => dev.serviceName = service).flatMap fun _ =>
    if hasValue then (n.verifications.infosOf order service).map fun v => ⟨v.id, state⟩ else []

/-- Source: `ukey/manager.go`, `Manager.getMarkedServiceIds`. -/
def getMarkedServiceIds (n : Notifier) (marks : GoMap.RangeOrder String String)
    (service : String) : List String :=
  ((marks.visit n.quitServiceMap).filter fun e => e.2 = service).map Sigma.fst

/-- The service is lost: its verifications are told, marked and deselected.
Source: `ukey/manager.go`, in `Manager.listenSignals`. -/
def nameLost (n : Notifier) (name : String) (order : GoMap.RangeOrder String DeviceInfo) :
    Notifier × List StateSignal :=
  let infoArray := n.verifications.infosOf order name
  ({ n with
    selected := infoArray.foldl (fun selected info => selected.erase info.dev) n.selected
    quitServiceMap := infoArray.foldl (fun marked info => marked.insert info.id name)
      n.quitServiceMap },
    infoArray.map fun info => ⟨info.id, uKeyStateDeviceNotExist⟩)

/-- The service is back: who is marked is told, and is not marked any more.
Source: `ukey/manager.go`, in `Manager.listenSignals`. -/
def nameReturned (n : Notifier) (name : String) (marks : GoMap.RangeOrder String String) :
    Notifier × List StateSignal :=
  let ids := n.getMarkedServiceIds marks name
  ({ n with quitServiceMap := ids.foldl (fun marked id => marked.erase id) n.quitServiceMap },
    ids.map fun id => ⟨id, uKeyStateDeviceOk⟩)

/-- What an action does, and the signals of the state that it sends. -/
def move (n : Notifier) : NotifyAction → Notifier × List StateSignal
  | .call a => (n.call a, [])
  | .stateChanged service hasValue state order =>
      (n, n.listenStatePropChanged service hasValue state order)
  | .nameOwnerChanged name oldOwner newOwner order marks =>
      if newOwner = "" ∧ oldOwner ≠ "" then n.nameLost name order
      else if newOwner ≠ "" ∧ oldOwner = "" then n.nameReturned name marks
      else (n, [])

/-- The manager has started. -/
def init (services : Services) : Notifier := ⟨.new services, [], ∅⟩

/-! ## What is due -/

/-- The service whose loss a verification was told of, by its id. -/
abbrev Told := String → Option String

/-- Who has been told of a loss, once an action was taken. -/
def told (n : Notifier) (t : Told) : NotifyAction → Told
  | .call (.stop id) => Function.update t id none
  | .call _ | .stateChanged _ _ _ _ => t
  | .nameOwnerChanged name oldOwner newOwner _ _ => fun id =>
      if newOwner = "" ∧ oldOwner ≠ "" then
        if n.verifications.serviceOf id = some name then some name else t id
      else if newOwner ≠ "" ∧ oldOwner = "" then
        if t id = some name then none else t id
      else t id

/-- How often a signal is due: once for each verification of the service whose new state is known or
that is lost, and once for each one that was told of the loss of a service that is back, and is
still there. -/
def due (n : Notifier) (t : Told) (a : NotifyAction) (sig : StateSignal) : ℕ :=
  match a with
  | .call _ => 0
  | .stateChanged service hasValue state _ =>
      if hasValue = true ∧ sig.state = state ∧
        n.verifications.serviceOf sig.id = some service then 1 else 0
  | .nameOwnerChanged name oldOwner newOwner _ _ =>
      if newOwner = "" ∧ oldOwner ≠ "" then
        if sig.state = uKeyStateDeviceNotExist ∧
          n.verifications.serviceOf sig.id = some name then 1 else 0
      else if newOwner ≠ "" ∧ oldOwner = "" then
        if sig.state = uKeyStateDeviceOk ∧ t sig.id = some name ∧
          (n.verifications.serviceOf sig.id).isSome = true then 1 else 0
      else 0

/-- One step; what is observed are the signals that are sent, and how often each is due. -/
def step (s : Notifier × Told) (a : NotifyAction) :
    Option ((Notifier × Told) × (List StateSignal × (StateSignal → ℕ))) :=
  some (((s.1.move a).1, s.1.told s.2 a), ((s.1.move a).2, s.1.due s.2 a))

/-- Each signal is sent as often as it is due. -/
def SentAsDue (o : List StateSignal × (StateSignal → ℕ)) : Prop := ∀ sig, o.1.count sig = o.2 sig

/-- What a new state finds: one device of the service has its handlers, if there is a verification
of the service. -/
def HeardOnce (s : Notifier × Told) : NotifyAction → Prop
  | .stateChanged service hasValue _ _ =>
      hasValue = true → (∃ id, s.1.verifications.serviceOf id = some service) →
        s.1.selected.countP (fun dev => dev.serviceName = service) = 1
  | _ => True

/-! ## One step -/

section

variable {s t : Notifier × Told}

/-- The marks of the manager say who was told of the loss of which service, and who was told is
still there. -/
structure Marked (s : Notifier × Told) : Prop where
  mark_eq : ∀ id, s.1.quitServiceMap.lookup id = s.2 id
  present : ∀ id, (s.2 id).isSome = true → (s.1.verifications.serviceOf id).isSome = true

/-- One state that is sent to each id of a list. -/
theorem count_signals (ids : List String) (state : ℤ) (sig : StateSignal) :
    (ids.map fun id => (⟨id, state⟩ : StateSignal)).count sig =
      if sig.state = state then ids.count sig.id else 0 := by
  obtain ⟨id, state'⟩ := sig
  dsimp only
  split_ifs with hstate
  · rw [hstate]
    refine List.count_map_of_injective ids (fun id => (⟨id, state⟩ : StateSignal)) ?_ id
    intro id₁ id₂ h
    exact (StateSignal.mk.inj h).1
  · rw [List.count_eq_zero, List.mem_map]
    rintro ⟨id', -, h⟩
    exact hstate (StateSignal.mk.inj h).2.symm

/-- Each verification of a service is told once by a loop over them. -/
theorem count_infosOf_signals (m : Verifications) (order : GoMap.RangeOrder String DeviceInfo)
    (service : String) (state : ℤ) (sig : StateSignal) :
    ((m.infosOf order service).map fun v => (⟨v.id, state⟩ : StateSignal)).count sig =
      if sig.state = state ∧ m.serviceOf sig.id = some service then 1 else 0 := by
  have hmap : ((m.infosOf order service).map fun v => (⟨v.id, state⟩ : StateSignal)) =
      ((m.infosOf order service).map fun v => v.id).map fun id => ⟨id, state⟩ := by
    rw [List.map_map]
    rfl
  rw [hmap, count_signals, Verifications.count_infosOf, ite_and]

/-- The ids that are marked with a service. -/
theorem mem_getMarkedServiceIds {n : Notifier} {marks : GoMap.RangeOrder String String}
    {service id : String} :
    id ∈ n.getMarkedServiceIds marks service ↔ n.quitServiceMap.lookup id = some service := by
  have hranges := marks.ranges n.quitServiceMap
  unfold getMarkedServiceIds
  rw [List.mem_map]
  constructor
  · rintro ⟨e, he, rfl⟩
    obtain ⟨hmem, hservice⟩ := List.mem_filter.mp he
    rw [← of_decide_eq_true hservice]
    exact hranges.mem_iff.mp hmem
  · intro h
    exact ⟨⟨id, service⟩, List.mem_filter.mpr ⟨hranges.mem_iff.mpr h, decide_eq_true rfl⟩, rfl⟩

/-- Each of them once. -/
theorem count_getMarkedServiceIds (n : Notifier) (marks : GoMap.RangeOrder String String)
    (service id : String) : (n.getMarkedServiceIds marks service).count id =
      if n.quitServiceMap.lookup id = some service then 1 else 0 := by
  have hnd : (n.getMarkedServiceIds marks service).Nodup :=
    List.Nodup.sublist (List.Sublist.map _ List.filter_sublist)
      (marks.ranges n.quitServiceMap).nodup
  rw [hnd.count]
  exact if_congr mem_getMarkedServiceIds rfl rfl

/-- **A change of state** is told by each device that has its handlers. -/
theorem count_listenStatePropChanged (n : Notifier) (service : String) (hasValue : Bool)
    (state : ℤ) (order : GoMap.RangeOrder String DeviceInfo) (sig : StateSignal) :
    (n.listenStatePropChanged service hasValue state order).count sig =
      n.selected.countP (fun dev => dev.serviceName = service) *
        if hasValue = true ∧ sig.state = state ∧
          n.verifications.serviceOf sig.id = some service then 1 else 0 := by
  unfold listenStatePropChanged
  rw [List.count_flatMap, Function.comp_def, List.map_const', List.sum_replicate_nat,
    ← List.countP_eq_length_filter]
  refine congrArg₂ _ rfl ?_
  cases hasValue with
  | false => rfl
  | true =>
      rw [if_pos rfl, count_infosOf_signals]
      exact if_congr (and_iff_right rfl).symm rfl rfl

/-- The marks after a loss. -/
theorem lookup_nameLost (n : Notifier) (name : String)
    (order : GoMap.RangeOrder String DeviceInfo) (id : String) :
    (n.nameLost name order).1.quitServiceMap.lookup id =
      if n.verifications.serviceOf id = some name then some name
      else n.quitServiceMap.lookup id := by
  have hloop := GoMap.lookup_foldl_insert (fun _ => True) name
    ((n.verifications.infosOf order name).map fun v => v.id) n.quitServiceMap id
  simp only [if_true, and_true, List.foldl_map, Verifications.mem_infosOf] at hloop
  exact hloop

/-- The marks after a return. -/
theorem lookup_nameReturned (n : Notifier) (name : String)
    (marks : GoMap.RangeOrder String String) (id : String) :
    (n.nameReturned name marks).1.quitServiceMap.lookup id =
      if n.quitServiceMap.lookup id = some name then none
      else n.quitServiceMap.lookup id := by
  refine (GoMap.lookup_foldl_erase _ _ _).trans ?_
  exact if_congr mem_getMarkedServiceIds rfl rfl

/-- Who was told stays told, as long as the verifications stay. -/
theorem Marked.imp (h : Marked s) {n : Notifier} (hmarks : n.quitServiceMap = s.1.quitServiceMap)
    (hkept : ∀ id, (s.1.verifications.serviceOf id).isSome = true →
      (n.verifications.serviceOf id).isSome = true) : Marked (n, s.2) where
  mark_eq id := (congrArg (AList.lookup id) hmarks).trans (h.mark_eq id)
  present id hid := hkept id (h.present id hid)

/-- A call keeps the marks of all verifications but one that it stops. -/
theorem Marked.call (h : Marked s) (a : Verifications.Action) :
    Marked (s.1.call a, s.1.told s.2 (.call a)) := by
  cases a with
  | construct env serviceName username useDefaultService =>
      rcases hr : s.1.verifications.constructVerification env serviceName username
        useDefaultService with ⟨m, sent, err | id⟩
      · simp only [Notifier.call, hr]
        refine h.imp rfl fun id hid => ?_
        rw [(Verifications.constructVerification_error hr).1]
        exact hid
      · simp only [Notifier.call, hr]
        refine h.imp rfl fun id' hid => ?_
        obtain ⟨dev, userInfo, -, -, -, -, rfl⟩ := Verifications.constructVerification_eq hr
        unfold Verifications.serviceOf Verifications.add at *
        rw [Option.isSome_map] at hid ⊢
        rw [AList.lookup_isSome, AList.mem_insert]
        exact .inr (AList.lookup_isSome.mp hid)
  | stop id =>
      have hother : ∀ {id'}, id' ≠ id → (s.1.call (.stop id)).verifications.serviceOf id' =
          s.1.verifications.serviceOf id' := fun hne =>
        congrArg (Option.map fun v : DeviceInfo => v.dev.serviceName) (AList.lookup_erase_ne hne)
      constructor
      · intro id'
        show (s.1.quitServiceMap.erase id).lookup id' = Function.update s.2 id none id'
        by_cases hid : id' = id
        · rw [hid, AList.lookup_erase, Function.update_self]
        · rw [AList.lookup_erase_ne hid, Function.update_of_ne hid]
          exact h.mark_eq id'
      · intro id' hsome
        replace hsome : (Function.update s.2 id none id').isSome = true := hsome
        by_cases hid : id' = id
        · rw [hid, Function.update_self] at hsome
          cases hsome
        · rw [Function.update_of_ne hid] at hsome
          rw [hother hid]
          exact h.present id' hsome
  | setDefaultDevice device => exact h.imp rfl fun _ hid => hid
  | services services => exact h.imp rfl fun _ hid => hid

/-- **Each action** keeps the marks. -/
theorem Marked.step {a : NotifyAction} {o : List StateSignal × (StateSignal → ℕ)}
    (h : Marked s) (hs : step s a = some (t, o)) : Marked t := by
  cases hs
  cases a with
  | call a => exact h.call a
  | stateChanged service hasValue state order => exact h
  | nameOwnerChanged name oldOwner newOwner order marks =>
      unfold move told
      dsimp only
      split_ifs
      · constructor
        · intro id
          rw [lookup_nameLost, h.mark_eq]
        · intro id hsome
          dsimp only at hsome
          split_ifs at hsome with hservice
          · exact Option.isSome_iff_exists.mpr ⟨name, hservice⟩
          · exact h.present id hsome
      · constructor
        · intro id
          rw [lookup_nameReturned, h.mark_eq]
        · intro id hsome
          dsimp only at hsome
          split_ifs at hsome
          · cases hsome
          · exact h.present id hsome
      · exact h

/-! ## Sent as due -/

/-- Who was told of a loss, and is still there, is told once of the return. -/
theorem count_nameReturned (h : Marked s) (name : String) (marks : GoMap.RangeOrder String String)
    (sig : StateSignal) : (s.1.nameReturned name marks).2.count sig =
      if sig.state = uKeyStateDeviceOk ∧ s.2 sig.id = some name ∧
        (s.1.verifications.serviceOf sig.id).isSome = true then 1 else 0 := by
  have hpresent : s.2 sig.id = some name ∧
      (s.1.verifications.serviceOf sig.id).isSome = true ↔ s.2 sig.id = some name :=
    and_iff_left_of_imp fun htold =>
      h.present sig.id (by rw [htold, Option.isSome_some])
  refine (count_signals _ _ _).trans ?_
  rw [count_getMarkedServiceIds, h.mark_eq, ← ite_and]
  exact if_congr (and_congr_right fun _ => hpresent.symm) rfl rfl

/-- A new state is told once exactly where one device of the service has its handlers, or there is
nobody to tell. -/
theorem sentAsDue_stateChanged_iff (service : String) (hasValue : Bool) (state : ℤ)
    (order : GoMap.RangeOrder String DeviceInfo) :
    SentAsDue ((s.1.move (.stateChanged service hasValue state order)).2,
        s.1.due s.2 (.stateChanged service hasValue state order)) ↔
      HeardOnce s (.stateChanged service hasValue state order) := by
  have hsent : SentAsDue ((s.1.move (.stateChanged service hasValue state order)).2,
      s.1.due s.2 (.stateChanged service hasValue state order)) ↔
      ∀ sig : StateSignal, s.1.selected.countP (fun dev => dev.serviceName = service) *
          (if hasValue = true ∧ sig.state = state ∧
            s.1.verifications.serviceOf sig.id = some service then 1 else 0) =
        if hasValue = true ∧ sig.state = state ∧
          s.1.verifications.serviceOf sig.id = some service then 1 else 0 :=
    forall_congr' fun sig => by
      rw [← count_listenStatePropChanged s.1 service hasValue state order sig]
      exact Iff.rfl
  rw [hsent]
  constructor
  · rintro h hvalue ⟨id, hid⟩
    have hsig := h ⟨id, state⟩
    rw [if_pos ⟨hvalue, rfl, hid⟩, Nat.mul_one] at hsig
    exact hsig
  · intro h sig
    split_ifs with hsig
    · rw [h hsig.1 ⟨sig.id, hsig.2.2⟩]
    · rfl

/-- **One step**: every signal is sent as often as it is due, but for a new state that is not heard
of once. -/
theorem sentAsDue_iff (h : Marked s) {a : NotifyAction}
    {o : List StateSignal × (StateSignal → ℕ)} (hs : step s a = some (t, o)) :
    SentAsDue o ↔ HeardOnce s a := by
  cases hs
  cases a with
  | call a => exact iff_of_true (fun _ => rfl) trivial
  | stateChanged service hasValue state order =>
      exact sentAsDue_stateChanged_iff service hasValue state order
  | nameOwnerChanged name oldOwner newOwner order marks =>
      refine iff_of_true (fun sig => ?_) trivial
      unfold move due
      dsimp only
      by_cases hlost : newOwner = "" ∧ oldOwner ≠ ""
      · rw [if_pos hlost, if_pos hlost]
        exact count_infosOf_signals s.1.verifications order name uKeyStateDeviceNotExist sig
      · rw [if_neg hlost, if_neg hlost]
        by_cases hback : newOwner ≠ "" ∧ oldOwner = ""
        · rw [if_pos hback, if_pos hback]
          exact count_nameReturned h name marks sig
        · rw [if_neg hback, if_neg hback]
          rfl

/-- **Every signal is sent as often as it is due** in a run exactly where each new state finds one
device of the service that has its handlers, or no verification of it. -/
theorem notify_iff (services : Services) (acts : List NotifyAction) :
    (∀ cs (s : Notifier × Told) os, cs <+: acts →
      run step (init services, fun _ => none) cs = some (s, os) → ∀ o ∈ os, SentAsDue o) ↔
      Along step HeardOnce (init services, fun _ => none) acts := by
  rw [← observes_iff_along (I := fun _ => True) (J := Marked) (fun _ _ _ _ h hs => h.step hs)
    (fun s a t o h _ hs => (and_iff_right trivial).trans (sentAsDue_iff h hs))
    (fun _ _ hs => by cases hs) ?_ trivial acts]
  · exact forall_congr' fun cs => forall_congr' fun s => forall_congr' fun os =>
      imp_congr_right fun _ => imp_congr_right fun _ => (and_iff_right trivial).symm
  · constructor
    · exact fun _ => rfl
    · intro id hid
      cases hid

end

/-- Two verifications of a service, whose device begins to verify. -/
def twoVerifications : List NotifyAction :=
  [.call (.construct Verifications.verifyingEnv "com.lingmo.ukey" "uos" false),
    .call (.construct Verifications.verifyingEnv "com.lingmo.ukey" "uos" false),
    .stateChanged "com.lingmo.ukey" true 2 (.listed _ _)]

/-- Each of them is told twice. -/
theorem told_twice :
    ¬ ∀ (services : Services) (acts : List NotifyAction) (s : Notifier × Told) os,
      run step (init services, fun _ => none) acts = some (s, os) → ∀ o ∈ os, SentAsDue o := by
  intro hall
  obtain ⟨s, o₁, o₂, o, hrun, hsent, hdue⟩ : ∃ (s : Notifier × Told) (o₁ o₂ o : _),
      run step (init Verifications.oneService, fun _ => none) twoVerifications =
        some (s, [o₁, o₂, o]) ∧
      o.1 = [⟨"2", 2⟩, ⟨"1", 2⟩, ⟨"2", 2⟩, ⟨"1", 2⟩] ∧ o.2 ⟨"1", 2⟩ = 1 :=
    ⟨_, _, _, _, rfl, rfl, rfl⟩
  have h := hall _ _ s _ hrun o (by simp) ⟨"1", 2⟩
  rw [hsent, hdue] at h
  exact absurd h (by decide)

end Notifier

end LingmoAuthenticate.UKey
