import Mathlib.Data.List.Infix
import Mathlib.Logic.Function.Basic
import LingmoAuthenticate.Lib.Machine

/-!
# Claiming a fingerprint device: `fingerprint/manager.go` and `fingerprint/device.go`

A client claims the default device before it uses it. The calls run in goroutines of their own; a
method of a device is one step, and so is what a call does between two of them. What belongs to
several devices (the default one, the client that is known to hold it) is read and written in steps
of its own, which other calls may come between.

* `BaseDevice.claim`, `BaseDevice.handleNameLost`: the methods of one device.
* `State.next`: the next step of a call.
* `Exclusive`: at most one device is claimed, it is the default one, and when no `Claim` is under
  way the manager knows who holds it.
* `exclusive_iff`: that is so exactly in the runs in which a device that is claimed, or made the
  default one, is still the right one (`Orderly`).
* `serial_exclusive`: it is so where no two calls of clients overlap.
-/

set_option linter.unusedSectionVars false

namespace LingmoAuthenticate.Fingerprint

open Lib

section claim

variable {δ σ υ : Type} [DecidableEq δ] [DecidableEq σ]

/-! ## One device -/

/-- The client that has claimed the device, if any, and its user; clients are known by their names
on the bus, of which none is empty. Source: `fingerprint/device.go`, `baseDevice`. -/
structure BaseDevice (σ υ : Type) where
  sender : Option σ
  user : Option υ

/-- What the driver answers within the time, or that it does not.
Source: `fingerprint/device.go`, the `select` of `baseDevice.claim`. -/
inductive DriverAnswer where
  | ok
  | error (msg : String)
  | timeout
  deriving DecidableEq, Repr

/-- An error that tells that the device is claimed already is none. -/
def DriverAnswer.err : DriverAnswer → Option String
  | .ok => none
  | .error msg => if "claimed".toList <:+: msg.toList then none else some msg
  | .timeout => some "claim timeout"

namespace BaseDevice

/-- Source: `fingerprint/device.go`, `baseDevice.isClaimed`. -/
def isClaimed (d : BaseDevice σ υ) : Bool := d.sender.isSome

/-- Whatever the driver answers. Source: `fingerprint/device.go`, `baseDevice.release`. -/
def release (_d : BaseDevice σ υ) : BaseDevice σ υ := ⟨none, none⟩

/-- Source: `fingerprint/device.go`, `baseDevice.claim`. -/
def claim (d : BaseDevice σ υ) (sender : Option σ) (userInfo : Option υ) (claimed : Bool)
    (answer : DriverAnswer) : Except String (BaseDevice σ υ) :=
  if claimed then
    if d.isClaimed then .error "device is already claimed"
    else
      match answer.err with
      | some err => .error err
      | none => .ok ⟨sender, userInfo⟩
  else if d.isClaimed then
    if d.sender ≠ sender then .error "sender not equal" else .ok d.release
  else .error "device is not claimed"

/-- Source: `fingerprint/device.go`, `baseDevice.handleNameLost`; with whether it was handled. -/
def handleNameLost (d : BaseDevice σ υ) (name : σ) : BaseDevice σ υ × Bool :=
  if d.sender = some name then (d.release, true) else (d, false)

/-- A device is claimed by the client that asks for it. -/
theorem claim_true_ok {d d' : BaseDevice σ υ} {sender : Option σ} {userInfo : Option υ}
    {answer : DriverAnswer} (h : d.claim sender userInfo true answer = .ok d') :
    d' = ⟨sender, userInfo⟩ := by
  unfold claim at h
  rw [if_pos rfl] at h
  split_ifs at h with hc
  rcases hans : answer.err with _ | err
  · rw [hans] at h
    cases h
    rfl
  · rw [hans] at h
    cases h

/-- A device is released by the client that has claimed it. -/
theorem claim_false_ok {d d' : BaseDevice σ υ} {sender : Option σ} {userInfo : Option υ}
    {answer : DriverAnswer} (h : d.claim sender userInfo false answer = .ok d') :
    d.sender = sender ∧ d.sender.isSome ∧ d' = ⟨none, none⟩ := by
  unfold claim isClaimed at h
  rw [if_neg Bool.false_ne_true] at h
  split_ifs at h with hc hs
  cases h
  exact ⟨not_not.mp hs, hc, rfl⟩

end BaseDevice

/-! ## The manager and its calls -/

/-- Source: `fingerprint/manager.go`, `Manager.claimInfo`; `none` is the empty name. -/
structure ClaimInfo (σ υ : Type) where
  sender : Option σ
  userInfo : Option υ

/-- Source: `fingerprint/device.go`, `DeviceInfo`. -/
structure DeviceInfo (δ : Type) where
  name : String
  available : Bool
  dev : δ

/-- How far a call is: what it does next, and what it has read. -/
inductive Call (δ σ υ : Type) where
  /-- `Claim`: the user is looked for. -/
  | getUserInfo (dev : δ) (sender : σ) (username : String) (claimed : Bool)
  /-- `Claim(true)`: is the device claimed? -/
  | isClaimed (dev : δ) (sender : σ) (userInfo : υ)
  /-- `Claim(true)`: who has claimed it? -/
  | claimInfo (dev : δ) (sender : σ) (userInfo : υ)
  /-- `Claim(true)`: the device is released in the name of the client that has claimed it. -/
  | releaseOld (dev : δ) (sender : σ) (userInfo : υ) (old : ClaimInfo σ υ)
  /-- `Claim(true)`: the device is claimed. -/
  | claim (dev : δ) (sender : σ) (userInfo : υ)
  /-- `Claim(true)`: the client is remembered. -/
  | setClaimInfo (sender : σ) (userInfo : υ)
  /-- `Claim(false)`: the device is released. -/
  | release (dev : δ) (sender : σ) (userInfo : υ)
  /-- `SetDefaultDevice`: is the device claimed? -/
  | targetIsClaimed (devInfo : DeviceInfo δ)
  /-- `SetDefaultDevice`: is the old default device claimed? -/
  | oldIsClaimed (devInfo : DeviceInfo δ)
  /-- `SetDefaultDevice`: the device is made the default one. -/
  | setDefault (devInfo : DeviceInfo δ)
  /-- A client has gone: the devices that are still to be told. -/
  | nameLost (name : σ) (devices : List δ)

namespace Call

/-- The call is a `Claim`. -/
def IsClaim : Call δ σ υ → Prop
  | .getUserInfo .. | .isClaimed .. | .claimInfo .. | .releaseOld .. | .claim ..
  | .setClaimInfo .. | .release .. => True
  | _ => False

/-- The call was made by a client. -/
def IsClients : Call δ σ υ → Prop
  | .nameLost .. => False
  | _ => True

end Call

/-- The devices, the default one, and the calls that are under way, by their goroutines. The mutex
of the properties is held through `SetDefaultDevice`. Source: `fingerprint/manager.go`,
`Manager`. -/
structure State (δ σ υ : Type) where
  devices : δ → BaseDevice σ υ
  defaultDevice : Option δ
  claimInfo : ClaimInfo σ υ
  propsMu : Bool
  calls : ℕ → Option (Call δ σ υ)

/-- What a step finds outside of the service: the user that the name stands for, or why there is
none, and how the driver answers. -/
structure Answers (υ : Type) where
  userInfo : Except String υ
  driver : DriverAnswer

/-- What happens: a call comes in under the number `i` and takes its first step, or the call of that
number goes on, with what it finds outside. -/
inductive ClaimAction (σ υ : Type) where
  | claim (i : ℕ) (sender : σ) (username : String) (claimed : Bool)
  | setDefaultDevice (i : ℕ) (deviceName : String)
  | nameLost (i : ℕ) (name : σ)
  | next (i : ℕ) (env : Answers υ)

namespace State

/-- A call goes on. -/
def goOn (s : State δ σ υ) (i : ℕ) (c : Call δ σ υ) : State δ σ υ :=
  { s with calls := Function.update s.calls i (some c) }

/-- A call has returned. -/
def done (s : State δ σ υ) (i : ℕ) : State δ σ υ :=
  { s with calls := Function.update s.calls i none }

/-- A device is changed. -/
def setDevice (s : State δ σ υ) (dev : δ) (d : BaseDevice σ υ) : State δ σ υ :=
  { s with devices := Function.update s.devices dev d }

/-- The next step of a call. Source: `fingerprint/manager.go`, `Manager.Claim`,
`Manager.setDefaultDeviceWithInfo` and `Manager.listenSignals`; that devices are selected, and the
choice is saved, is left out. -/
def next (s : State δ σ υ) (i : ℕ) (env : Answers υ) : Call δ σ υ → State δ σ υ
  | .getUserInfo dev sender _ claimed =>
      match env.userInfo with
      | .error _ => s.done i
      | .ok userInfo =>
          if claimed then s.goOn i (.isClaimed dev sender userInfo)
          else s.goOn i (.release dev sender userInfo)
  | .isClaimed dev sender userInfo =>
      if (s.devices dev).isClaimed then s.goOn i (.claimInfo dev sender userInfo)
      else s.goOn i (.claim dev sender userInfo)
  | .claimInfo dev sender userInfo => s.goOn i (.releaseOld dev sender userInfo s.claimInfo)
  | .releaseOld dev sender userInfo old =>
      match (s.devices dev).claim old.sender old.userInfo false env.driver with
      | .error _ => s.done i
      | .ok d => (s.setDevice dev d).goOn i (.claim dev sender userInfo)
  | .claim dev sender userInfo =>
      match (s.devices dev).claim (some sender) (some userInfo) true env.driver with
      | .error _ => s.done i
      | .ok d => (s.setDevice dev d).goOn i (.setClaimInfo sender userInfo)
  | .setClaimInfo sender userInfo =>
      { s with claimInfo := ⟨some sender, some userInfo⟩ }.done i
  | .release dev sender userInfo =>
      match (s.devices dev).claim (some sender) (some userInfo) false env.driver with
      | .error _ => s.done i
      | .ok d => (s.setDevice dev d).done i
  | .targetIsClaimed devInfo =>
      if (s.devices devInfo.dev).isClaimed then { s with propsMu := false }.done i
      else
        match s.defaultDevice with
        | some _ => s.goOn i (.oldIsClaimed devInfo)
        | none => s.goOn i (.setDefault devInfo)
  | .oldIsClaimed devInfo =>
      match s.defaultDevice with
      | some oldDev =>
          if (s.devices oldDev).isClaimed then { s with propsMu := false }.done i
          else s.goOn i (.setDefault devInfo)
      | none => s.goOn i (.setDefault devInfo)
  | .setDefault devInfo =>
      { s with defaultDevice := some devInfo.dev, propsMu := false }.done i
  | .nameLost _ [] => s.done i
  | .nameLost name (dev :: devices) =>
      match (s.devices dev).handleNameLost name with
      | (d, true) => (s.setDevice dev d).done i
      | (_, false) => s.goOn i (.nameLost name devices)

/-- The device with a name. Source: `fingerprint/manager.go`, the loop of
`Manager.setDefaultDevice`. -/
def findDevice (deviceInfoList : List (DeviceInfo δ)) (deviceName : String) :
    Option (DeviceInfo δ) :=
  (deviceInfoList.find? fun info => info.name = deviceName).filter fun info => info.name ≠ ""

/-- One step. A call comes in under an idle goroutine, and reads the default device where no
`SetDefaultDevice` holds the mutex. -/
def move (allDevices : List δ) (deviceInfoList : List (DeviceInfo δ)) (s : State δ σ υ) :
    ClaimAction σ υ → Option (State δ σ υ)
  | .claim i sender username claimed =>
      if (s.calls i).isNone ∧ s.propsMu = false then
        match s.defaultDevice with
        | none => some s
        | some dev => some (s.goOn i (.getUserInfo dev sender username claimed))
      else none
  | .setDefaultDevice i deviceName =>
      if (s.calls i).isNone ∧ s.propsMu = false then
        match findDevice deviceInfoList deviceName with
        | none => some s
        | some devInfo =>
            if devInfo.available then
              some ({ s with propsMu := true }.goOn i (.targetIsClaimed devInfo))
            else some s
      else none
  | .nameLost i name =>
      if (s.calls i).isNone then some (s.goOn i (.nameLost name allDevices)) else none
  | .next i env => (s.calls i).map fun c => s.next i env c

/-- One step, with nothing observed: the devices are read from the state. -/
def step (allDevices : List δ) (deviceInfoList : List (DeviceInfo δ)) (s : State δ σ υ)
    (a : ClaimAction σ υ) : Option (State δ σ υ × Unit) :=
  (s.move allDevices deviceInfoList a).map fun s => (s, ())

/-- The service has started, with a default device or without. -/
def init (defaultDevice : Option δ) : State δ σ υ :=
  ⟨fun _ => ⟨none, none⟩, defaultDevice, ⟨none, none⟩, false, fun _ => none⟩

/-- The device is claimed by the client. -/
def ClaimedBy (s : State δ σ υ) (dev : δ) (sender : σ) : Prop :=
  (s.devices dev).sender = some sender

/-- No `Claim` is under way. -/
def Quiet (s : State δ σ υ) : Prop := ∀ i c, s.calls i = some c → ¬ c.IsClaim

/-- No other `Claim` is under way. -/
def Alone (s : State δ σ υ) (i : ℕ) : Prop := ∀ j c, j ≠ i → s.calls j = some c → ¬ c.IsClaim

/-- A device that is claimed is claimed by the client that is known. -/
def Known (s : State δ σ υ) : Prop :=
  ∀ dev sender, s.ClaimedBy dev sender → s.claimInfo.sender = some sender

/-- **Exclusive claims**: only one device is claimed by clients, that is the default one, and where
no call is under way the service knows who has claimed it. -/
structure Exclusive (s : State δ σ υ) : Prop where
  one : ∀ dev dev' sender sender', s.ClaimedBy dev sender → s.ClaimedBy dev' sender' → dev = dev'
  isDefault : ∀ dev sender, s.ClaimedBy dev sender → s.defaultDevice = some dev
  known : s.Quiet → s.Known

/-- What does not go wrong in the next step of a call. A device that is claimed is still the default
one. When a device is made the default one, no other is claimed. And when the last `Claim` that is
under way ends, a device that is claimed is claimed by the client that is known, or that is
remembered now. -/
def OrderlyCall (s : State δ σ υ) (i : ℕ) (env : Answers υ) : Call δ σ υ → Prop
  | .getUserInfo .. => env.userInfo.toOption.isNone → s.Alone i → s.Known
  | .releaseOld dev _ _ old =>
      ((s.devices dev).claim old.sender old.userInfo false env.driver).toOption.isNone →
        s.Alone i → s.Known
  | .claim dev sender userInfo =>
      match (s.devices dev).claim (some sender) (some userInfo) true env.driver with
      | .ok _ => s.defaultDevice = some dev
      | .error _ => s.Alone i → s.Known
  | .setClaimInfo sender _ =>
      s.Alone i → ∀ dev sender', s.ClaimedBy dev sender' → sender' = sender
  | .release dev sender userInfo =>
      ((s.devices dev).claim (some sender) (some userInfo) false env.driver).toOption.isNone →
        s.Alone i → s.Known
  | .setDefault devInfo => ∀ dev sender, s.ClaimedBy dev sender → dev = devInfo.dev
  | _ => True

/-- Nothing goes wrong in a step. -/
def Orderly (s : State δ σ υ) : ClaimAction σ υ → Prop
  | .next i env => ∀ c, s.calls i = some c → s.OrderlyCall i env c
  | _ => True

/-! ## What one step does to the claims -/

/-- When a call returns, no `Claim` is left where it was alone. -/
theorem quiet_done_iff {s : State δ σ υ} {i : ℕ} : (s.done i).Quiet ↔ s.Alone i := by
  constructor
  · intro h j c hj hc
    exact h j c (by simp [done, Function.update_of_ne hj, hc])
  · intro h j c hc
    by_cases hj : j = i
    · subst hj
      simp [done] at hc
    · exact h j c hj (by simpa [done, Function.update_of_ne hj] using hc)

/-- A `Claim` that goes on is under way. -/
theorem not_quiet_goOn {s : State δ σ υ} {i : ℕ} {c : Call δ σ υ} (hc : c.IsClaim) :
    ¬ (s.goOn i c).Quiet := by
  intro h
  exact h i c (by simp [goOn]) hc

/-- A call that is no `Claim` leaves those that are. -/
theorem quiet_of_goOn {s : State δ σ υ} {i : ℕ} {c : Call δ σ υ}
    (hi : ∀ c', s.calls i = some c' → ¬ c'.IsClaim) (h : (s.goOn i c).Quiet) : s.Quiet := by
  intro j c' hc'
  by_cases hj : j = i
  · subst hj
    exact hi c' hc'
  · exact h j c' (by simp [goOn, Function.update_of_ne hj, hc'])

theorem quiet_of_done {s : State δ σ υ} {i : ℕ}
    (hi : ∀ c', s.calls i = some c' → ¬ c'.IsClaim) (h : (s.done i).Quiet) : s.Quiet := by
  intro j c' hc'
  by_cases hj : j = i
  · subst hj
    exact hi c' hc'
  · exact quiet_done_iff.mp h j c' hj hc'

/-- A device that is claimed after one was released, was claimed before. -/
theorem claimedBy_of_release {s : State δ σ υ} {dev dev' : δ} {sender : σ}
    (h : (s.setDevice dev ⟨none, none⟩).ClaimedBy dev' sender) :
    dev' ≠ dev ∧ s.ClaimedBy dev' sender := by
  by_cases hdev : dev' = dev
  · subst hdev
    simp [ClaimedBy, setDevice] at h
  · refine ⟨hdev, ?_⟩
    simpa [ClaimedBy, setDevice, Function.update_of_ne hdev] using h

/-- Fewer claims, while the manager remembers the same. -/
theorem Exclusive.mono {s t : State δ σ υ} (h : s.Exclusive)
    (hclaimed : ∀ dev sender, t.ClaimedBy dev sender → s.ClaimedBy dev sender)
    (hdefault : t.defaultDevice = s.defaultDevice) (hknown : t.Quiet → t.Known) :
    t.Exclusive where
  one dev dev' sender sender' hd hd' := h.one dev dev' sender sender' (hclaimed _ _ hd)
    (hclaimed _ _ hd')
  isDefault dev sender hd := by
    rw [hdefault]
    exact h.isDefault dev sender (hclaimed _ _ hd)
  known := hknown

/-- **A `Claim` returns**, and changes nothing. -/
theorem exclusive_done_iff {s : State δ σ υ} (h : s.Exclusive) {i : ℕ} :
    (s.done i).Exclusive ↔ (s.Alone i → s.Known) := by
  constructor
  · intro ht halone
    exact ht.known (quiet_done_iff.mpr halone)
  · intro hknown
    exact h.mono (fun _ _ hd => hd) rfl fun hquiet => hknown (quiet_done_iff.mp hquiet)

/-- **A `Claim` goes on**, and changes nothing. -/
theorem Exclusive.goOn {s : State δ σ υ} (h : s.Exclusive) {i : ℕ} {c : Call δ σ υ}
    (hc : c.IsClaim) : (s.goOn i c).Exclusive :=
  h.mono (fun _ _ hd => hd) rfl fun hquiet => absurd hquiet (not_quiet_goOn hc)

/-- **A call that is no `Claim` goes on or returns**, and releases devices at most. -/
theorem Exclusive.other {s t : State δ σ υ} (h : s.Exclusive)
    (hclaimed : ∀ dev sender, t.ClaimedBy dev sender → s.ClaimedBy dev sender)
    (hdefault : t.defaultDevice = s.defaultDevice) (hinfo : t.claimInfo = s.claimInfo)
    (hquiet : t.Quiet → s.Quiet) : t.Exclusive := by
  refine h.mono hclaimed hdefault ?_
  intro hq dev sender hd
  rw [hinfo]
  exact h.known (hquiet hq) dev sender (hclaimed dev sender hd)

/-- **A device is claimed.** -/
theorem exclusive_claim_iff {s : State δ σ υ} (h : s.Exclusive) {i : ℕ} {dev : δ} {sender : σ}
    {userInfo : υ} :
    ((s.setDevice dev ⟨some sender, some userInfo⟩).goOn i
      (.setClaimInfo sender userInfo)).Exclusive ↔ s.defaultDevice = some dev := by
  constructor
  · intro ht
    exact ht.isDefault dev sender (by simp [ClaimedBy, State.goOn, setDevice])
  · intro hdefault
    -- any other device that is claimed would be the default one
    have honly : ∀ dev' sender', ((s.setDevice dev ⟨some sender, some userInfo⟩).goOn i
        (.setClaimInfo sender userInfo)).ClaimedBy dev' sender' → dev' = dev := by
      intro dev' sender' hd
      by_contra hne
      have hold : s.ClaimedBy dev' sender' := by
        simpa [ClaimedBy, State.goOn, setDevice, Function.update_of_ne hne] using hd
      have hdefault' := h.isDefault dev' sender' hold
      rw [hdefault, Option.some.injEq] at hdefault'
      exact hne hdefault'.symm
    constructor
    · intro dev₁ dev₂ sender₁ sender₂ h₁ h₂
      rw [honly dev₁ sender₁ h₁, honly dev₂ sender₂ h₂]
    · intro dev' sender' hd
      rw [honly dev' sender' hd]
      exact hdefault
    · intro hquiet
      exact absurd hquiet (not_quiet_goOn trivial)

/-- **A client is remembered.** -/
theorem exclusive_setClaimInfo_iff {s : State δ σ υ} (h : s.Exclusive) {i : ℕ} {sender : σ}
    {userInfo : υ} :
    ({ s with claimInfo := ⟨some sender, some userInfo⟩ }.done i).Exclusive ↔
      (s.Alone i → ∀ dev sender', s.ClaimedBy dev sender' → sender' = sender) := by
  constructor
  · intro ht halone dev sender' hd
    have hknown := ht.known (quiet_done_iff.mpr halone) dev sender' hd
    exact (Option.some.inj hknown).symm
  · intro hsender
    refine h.mono (fun _ _ hd => hd) rfl ?_
    intro hquiet dev sender' hd
    exact congrArg some (hsender (quiet_done_iff.mp hquiet) dev sender' hd).symm

/-- **A device is made the default one.** -/
theorem exclusive_setDefault_iff {s : State δ σ υ} (h : s.Exclusive) {i : ℕ} {dev : δ}
    (hi : ∀ c, s.calls i = some c → ¬ c.IsClaim) :
    ({ s with defaultDevice := some dev, propsMu := false }.done i).Exclusive ↔
      ∀ dev' sender, s.ClaimedBy dev' sender → dev' = dev := by
  constructor
  · intro ht dev' sender hd
    have hdefault := ht.isDefault dev' sender hd
    exact (Option.some.inj hdefault).symm
  · intro honly
    constructor
    · exact h.one
    · intro dev' sender hd
      exact congrArg some (honly dev' sender hd).symm
    · intro hquiet
      have hquiet' : s.Quiet := quiet_of_done hi hquiet
      exact h.known hquiet'

/-- **One step of a call.** -/
theorem exclusive_next_iff {s : State δ σ υ} (h : s.Exclusive) {i : ℕ} {c : Call δ σ υ}
    (hi : s.calls i = some c) (env : Answers υ) :
    (s.next i env c).Exclusive ↔ s.OrderlyCall i env c := by
  have hother : ¬ c.IsClaim → ∀ c', s.calls i = some c' → ¬ c'.IsClaim := by
    intro hc c' hc'
    rw [hi, Option.some.injEq] at hc'
    exact hc' ▸ hc
  cases c with
  | getUserInfo dev sender username claimed =>
      simp only [next, OrderlyCall]
      rcases env.userInfo with err | userInfo
      · exact (exclusive_done_iff h).trans (imp_iff_right rfl).symm
      · refine iff_of_true ?_ (fun hnone => by cases hnone)
        dsimp only
        split_ifs
        · exact h.goOn trivial
        · exact h.goOn trivial
  | isClaimed dev sender userInfo =>
      refine iff_of_true ?_ trivial
      simp only [next]
      split_ifs
      · exact h.goOn trivial
      · exact h.goOn trivial
  | claimInfo dev sender userInfo => exact iff_of_true (h.goOn trivial) trivial
  | releaseOld dev sender userInfo old =>
      simp only [next, OrderlyCall]
      rcases hclaim : (s.devices dev).claim old.sender old.userInfo false env.driver with err | d
      · exact (exclusive_done_iff h).trans (imp_iff_right rfl).symm
      · refine iff_of_true ?_ (fun hnone => by cases hnone)
        obtain ⟨-, -, rfl⟩ := BaseDevice.claim_false_ok hclaim
        exact h.mono (fun _ _ hd => (claimedBy_of_release hd).2) rfl
          fun hquiet => absurd hquiet (not_quiet_goOn trivial)
  | claim dev sender userInfo =>
      simp only [next, OrderlyCall]
      rcases hclaim : (s.devices dev).claim (some sender) (some userInfo) true env.driver with
        err | d
      · exact exclusive_done_iff h
      · obtain rfl := BaseDevice.claim_true_ok hclaim
        exact exclusive_claim_iff h
  | setClaimInfo sender userInfo => exact exclusive_setClaimInfo_iff h
  | release dev sender userInfo =>
      simp only [next, OrderlyCall]
      rcases hclaim : (s.devices dev).claim (some sender) (some userInfo) false env.driver with
        err | d
      · exact (exclusive_done_iff h).trans (imp_iff_right rfl).symm
      · refine iff_of_true ?_ (fun hnone => by cases hnone)
        obtain ⟨hsender, -, rfl⟩ := BaseDevice.claim_false_ok hclaim
        refine h.mono (fun _ _ hd => (claimedBy_of_release hd).2) rfl ?_
        -- the device was the only one
        intro _ dev' sender' hd
        obtain ⟨hne, hold⟩ := claimedBy_of_release hd
        exact absurd (h.one dev' dev sender' sender hold hsender) hne
  | targetIsClaimed devInfo =>
      refine iff_of_true ?_ trivial
      simp only [next]
      split_ifs
      · exact h.other (fun _ _ hd => hd) rfl rfl (quiet_of_done (hother id))
      · rcases hdefault : s.defaultDevice with _ | oldDev
        · exact h.other (fun _ _ hd => hd) rfl rfl (quiet_of_goOn (hother id))
        · exact h.other (fun _ _ hd => hd) rfl rfl (quiet_of_goOn (hother id))
  | oldIsClaimed devInfo =>
      refine iff_of_true ?_ trivial
      rcases hdefault : s.defaultDevice with _ | oldDev
      · simp only [next, hdefault]
        exact h.other (fun _ _ hd => hd) rfl rfl (quiet_of_goOn (hother id))
      · simp only [next, hdefault]
        split_ifs
        · exact h.other (fun _ _ hd => hd) hdefault.symm rfl (quiet_of_done (hother id))
        · exact h.other (fun _ _ hd => hd) rfl rfl (quiet_of_goOn (hother id))
  | setDefault devInfo => exact exclusive_setDefault_iff h (hother id)
  | nameLost name devices =>
      refine iff_of_true ?_ trivial
      rcases devices with _ | ⟨dev, devices⟩
      · exact h.other (fun _ _ hd => hd) rfl rfl (quiet_of_done (hother id))
      · simp only [next, BaseDevice.handleNameLost]
        split_ifs
        · exact h.other (fun _ _ hd => (claimedBy_of_release hd).2) rfl rfl
            (quiet_of_done (hother id))
        · exact h.other (fun _ _ hd => hd) rfl rfl (quiet_of_goOn (hother id))

/-- **One step**, where claims have been exclusive so far. -/
theorem exclusive_step_iff {allDevices : List δ} {deviceInfoList : List (DeviceInfo δ)}
    {s t : State δ σ υ} (h : s.Exclusive) {a : ClaimAction σ υ} {u : Unit}
    (hs : s.step allDevices deviceInfoList a = some (t, u)) : t.Exclusive ↔ s.Orderly a := by
  obtain ⟨t', hmove, heq⟩ := Option.map_eq_some_iff.mp hs
  cases heq
  have hidle : ∀ {i : ℕ}, (s.calls i).isNone → ∀ c', s.calls i = some c' → ¬ c'.IsClaim := by
    intro i hi c' hc'
    rw [hc'] at hi
    cases hi
  cases a with
  | claim i sender username claimed =>
      simp only [move, Option.ite_none_right_eq_some] at hmove
      obtain ⟨⟨hi, -⟩, hmove⟩ := hmove
      refine iff_of_true ?_ trivial
      rcases hdefault : s.defaultDevice with _ | dev
      · rw [hdefault] at hmove
        cases hmove
        exact h
      · rw [hdefault] at hmove
        cases hmove
        exact h.goOn trivial
  | setDefaultDevice i deviceName =>
      simp only [move, Option.ite_none_right_eq_some] at hmove
      obtain ⟨⟨hi, -⟩, hmove⟩ := hmove
      refine iff_of_true ?_ trivial
      rcases hfind : findDevice deviceInfoList deviceName with _ | devInfo
      · rw [hfind] at hmove
        cases hmove
        exact h
      · simp only [hfind] at hmove
        split_ifs at hmove
        · cases hmove
          exact h.other (fun _ _ hd => hd) rfl rfl (quiet_of_goOn (hidle hi))
        · cases hmove
          exact h
  | nameLost i name =>
      simp only [move, Option.ite_none_right_eq_some] at hmove
      obtain ⟨hi, hmove⟩ := hmove
      cases hmove
      exact iff_of_true (h.other (fun _ _ hd => hd) rfl rfl (quiet_of_goOn (hidle hi))) trivial
  | next i env =>
      obtain ⟨c, hc, rfl⟩ := Option.map_eq_some_iff.mp hmove
      rw [exclusive_next_iff h hc env]
      constructor
      · intro horderly c' hc'
        obtain rfl : c = c' := Option.some.inj (hc.symm.trans hc')
        exact horderly
      · intro horderly
        exact horderly c hc

/-- At first no device is claimed. -/
theorem exclusive_init (defaultDevice : Option δ) :
    (init defaultDevice : State δ σ υ).Exclusive where
  one _ _ _ _ hd := by cases hd
  isDefault _ _ hd := by cases hd
  known _ _ _ hd := by cases hd

/-! ## Calls that do not overlap -/

/-- A call of a client comes in when no other one is under way. -/
def Serial (s : State δ σ υ) : ClaimAction σ υ → Prop
  | .claim .. | .setDefaultDevice .. => ∀ j c, s.calls j = some c → ¬ c.IsClients
  | _ => True

/-- The call remembers its client next. -/
def Records : Call δ σ υ → Prop
  | .setClaimInfo .. => True
  | _ => False

/-- What is known of the devices while the only call of a client is under way. -/
def Facts (s : State δ σ υ) : Call δ σ υ → Prop
  | .getUserInfo dev .. | .isClaimed dev .. | .claimInfo dev .. | .releaseOld dev ..
  | .claim dev .. | .release dev .. => s.defaultDevice = some dev
  | .setClaimInfo sender _ => ∀ dev sender', s.ClaimedBy dev sender' → sender' = sender
  | .setDefault _ => ∀ dev sender, ¬ s.ClaimedBy dev sender
  | .targetIsClaimed _ | .oldIsClaimed _ | .nameLost .. => True

/-- Calls of clients come one at a time (`one`), only the default device is claimed, what a call has
read on its way still holds (`facts`), and unless a call is about to write it down the service knows
who has claimed the device. -/
structure SerialInv (s : State δ σ υ) : Prop where
  one : ∀ i j c c', s.calls i = some c → s.calls j = some c' → c.IsClients → c'.IsClients → i = j
  isDefault : ∀ dev sender, s.ClaimedBy dev sender → s.defaultDevice = some dev
  facts : ∀ i c, s.calls i = some c → s.Facts c
  known : (∀ i c, s.calls i = some c → ¬ Records c) → s.Known

/-- While a call is under way that remembers nothing yet, the client that is known is the right
one. -/
theorem SerialInv.known_of_call {s : State δ σ υ} (h : s.SerialInv) {i : ℕ} {c : Call δ σ υ}
    (hi : s.calls i = some c) (hc : c.IsClients) (hrec : ¬ Records c) : s.Known := by
  refine h.known ?_
  intro j c' hj hrec'
  have hc' : c'.IsClients := by
    cases c' with
    | setClaimInfo => trivial
    | _ => exact hrec'.elim
  obtain rfl := h.one i j c c' hi hj hc hc'
  rw [hi, Option.some.injEq] at hj
  exact hrec (hj ▸ hrec')

/-- **The only call of a client takes a step.** -/
theorem SerialInv.client {s t : State δ σ υ} (h : s.SerialInv) {i : ℕ} {c : Call δ σ υ}
    (hi : s.calls i = some c) (hc : c.IsClients) (hcalls : ∀ j, j ≠ i → t.calls j = s.calls j)
    (hdefault : ∀ dev sender, t.ClaimedBy dev sender → t.defaultDevice = some dev)
    (hfacts : ∀ c', t.calls i = some c' → t.Facts c')
    (hknown : (∀ c', t.calls i = some c' → ¬ Records c') → t.Known) : t.SerialInv := by
  -- the other calls are none of clients
  have hother : ∀ j c', j ≠ i → t.calls j = some c' → ¬ c'.IsClients := by
    intro j c' hj hc' hclient
    rw [hcalls j hj] at hc'
    exact hj (h.one i j c c' hi hc' hc hclient).symm
  constructor
  · intro j k c₁ c₂ h₁ h₂ hc₁ hc₂
    have hj : j = i := by
      by_contra hne
      exact hother j c₁ hne h₁ hc₁
    have hk : k = i := by
      by_contra hne
      exact hother k c₂ hne h₂ hc₂
    rw [hj, hk]
  · exact hdefault
  · intro j c' hc'
    by_cases hj : j = i
    · subst hj
      exact hfacts c' hc'
    · cases c' with
      | nameLost => trivial
      | _ => exact (hother j _ hj hc' trivial).elim
  · intro hrec
    exact hknown fun c' hc' => hrec i c' hc'

/-- The same, where devices are released at most. -/
theorem SerialInv.client_release {s t : State δ σ υ} (h : s.SerialInv) {i : ℕ} {c : Call δ σ υ}
    (hi : s.calls i = some c) (hc : c.IsClients) (hrec : ¬ Records c)
    (hcalls : ∀ j, j ≠ i → t.calls j = s.calls j)
    (hclaimed : ∀ dev sender, t.ClaimedBy dev sender → s.ClaimedBy dev sender)
    (hdefault : t.defaultDevice = s.defaultDevice) (hinfo : t.claimInfo = s.claimInfo)
    (hfacts : ∀ c', t.calls i = some c' → t.Facts c') : t.SerialInv := by
  refine h.client hi hc hcalls ?_ hfacts ?_
  · intro dev sender hd
    rw [hdefault]
    exact h.isDefault dev sender (hclaimed dev sender hd)
  · intro _ dev sender hd
    rw [hinfo]
    exact h.known_of_call hi hc hrec dev sender (hclaimed dev sender hd)

/-- **Another call takes a step**, and releases devices at most. -/
theorem SerialInv.release {s t : State δ σ υ} (h : s.SerialInv) {i : ℕ}
    (hi : ∀ c, s.calls i = some c → ¬ c.IsClients)
    (ht : ∀ c, t.calls i = some c → ¬ c.IsClients)
    (hcalls : ∀ j, j ≠ i → t.calls j = s.calls j)
    (hclaimed : ∀ dev sender, t.ClaimedBy dev sender → s.ClaimedBy dev sender)
    (hdefault : t.defaultDevice = s.defaultDevice) (hinfo : t.claimInfo = s.claimInfo) :
    t.SerialInv := by
  have hold : ∀ {j c}, t.calls j = some c → c.IsClients → s.calls j = some c := by
    intro j c hc hclient
    have hj : j ≠ i := by
      rintro rfl
      exact ht c hc hclient
    rw [← hcalls j hj]
    exact hc
  constructor
  · intro j k c₁ c₂ h₁ h₂ hc₁ hc₂
    exact h.one j k c₁ c₂ (hold h₁ hc₁) (hold h₂ hc₂) hc₁ hc₂
  · intro dev sender hd
    rw [hdefault]
    exact h.isDefault dev sender (hclaimed dev sender hd)
  · intro j c hc
    cases c with
    | getUserInfo | isClaimed | claimInfo | releaseOld | claim | release =>
        have hfacts := h.facts j _ (hold hc trivial)
        simp only [Facts] at hfacts ⊢
        rw [hdefault]
        exact hfacts
    | setClaimInfo sender userInfo =>
        have hfacts := h.facts j _ (hold hc trivial)
        exact fun dev sender' hd => hfacts dev sender' (hclaimed dev sender' hd)
    | setDefault devInfo =>
        have hfacts := h.facts j _ (hold hc trivial)
        exact fun dev sender' hd => hfacts dev sender' (hclaimed dev sender' hd)
    | targetIsClaimed | oldIsClaimed | nameLost => trivial
  · intro hrec dev sender hd
    rw [hinfo]
    refine h.known ?_ dev sender (hclaimed dev sender hd)
    intro j c hc hrec'
    by_cases hj : j = i
    · subst hj
      cases c with
      | setClaimInfo => exact hi _ hc trivial
      | _ => exact hrec'
    · exact hrec j c (by rw [hcalls j hj, hc]) hrec'

/-- The only call of a client finds what it goes by. -/
theorem SerialInv.orderly {s : State δ σ υ} (h : s.SerialInv) (a : ClaimAction σ υ) :
    s.Orderly a := by
  cases a with
  | next i env =>
      intro c hc
      have hfacts := h.facts i c hc
      cases c with
      | getUserInfo | releaseOld | release =>
          exact fun _ _ => h.known_of_call hc trivial id
      | claim dev sender userInfo =>
          simp only [OrderlyCall]
          rcases (s.devices dev).claim (some sender) (some userInfo) true env.driver with err | d
          · exact fun _ => h.known_of_call hc trivial id
          · exact hfacts
      | setClaimInfo => exact fun _ => hfacts
      | setDefault => exact fun dev sender hd => absurd hd (hfacts dev sender)
      | isClaimed | claimInfo | targetIsClaimed | oldIsClaimed | nameLost => trivial
  | claim | setDefaultDevice | nameLost => trivial

/-- Another call than the one that takes a step is where it was. -/
theorem goOn_calls {s : State δ σ υ} {i j : ℕ} {c : Call δ σ υ} (hj : j ≠ i) :
    (s.goOn i c).calls j = s.calls j := Function.update_of_ne hj _ _

theorem done_calls {s : State δ σ υ} {i j : ℕ} (hj : j ≠ i) :
    (s.done i).calls j = s.calls j := Function.update_of_ne hj _ _

/-- A call that went on is where it went. -/
theorem eq_of_goOn {s : State δ σ υ} {i : ℕ} {c c' : Call δ σ υ}
    (h : (s.goOn i c).calls i = some c') : c = c' := by
  simpa [goOn] using h

theorem done_none {s : State δ σ υ} {i : ℕ} {c : Call δ σ υ} {P : Prop}
    (h : (s.done i).calls i = some c) : P := by
  simp [done] at h

/-- The only call of a client returns, and changes nothing. -/
theorem SerialInv.client_done {s : State δ σ υ} (h : s.SerialInv) {i : ℕ} {c : Call δ σ υ}
    (hi : s.calls i = some c) (hc : c.IsClients) (hrec : ¬ Records c) : (s.done i).SerialInv :=
  h.client_release hi hc hrec (fun _ hj => done_calls hj) (fun _ _ hd => hd) rfl rfl
    fun _ h' => done_none h'

/-- The only call of a client goes on, and changes nothing. -/
theorem SerialInv.client_goOn {s : State δ σ υ} (h : s.SerialInv) {i : ℕ} {c c' : Call δ σ υ}
    (hi : s.calls i = some c) (hc : c.IsClients) (hrec : ¬ Records c) (hfacts : s.Facts c') :
    (s.goOn i c').SerialInv := by
  refine h.client_release hi hc hrec (fun _ hj => goOn_calls hj) (fun _ _ hd => hd) rfl rfl ?_
  intro c'' h'
  obtain rfl := eq_of_goOn h'
  cases c' with
  | _ => exact hfacts

/-- Where no default device is claimed, no device is. -/
theorem SerialInv.free {s : State δ σ υ} (h : s.SerialInv) {oldDev : Option δ}
    (hold : s.defaultDevice = oldDev)
    (hclaimed : ∀ dev, oldDev = some dev → (s.devices dev).isClaimed = false) (dev : δ)
    (sender : σ) : ¬ s.ClaimedBy dev sender := by
  intro hd
  have hfree := hclaimed dev (hold ▸ h.isDefault dev sender hd)
  rw [BaseDevice.isClaimed, show (s.devices dev).sender = some sender from hd] at hfree
  cases hfree

/-- Where the default device is claimed, it is the only one that is. -/
theorem SerialInv.only {s : State δ σ υ} (h : s.SerialInv) {dev : δ} {sender : σ} {userInfo : υ}
    (hdefault : s.defaultDevice = some dev) {dev' : δ} {sender' : σ}
    (hd : (s.setDevice dev ⟨some sender, some userInfo⟩).ClaimedBy dev' sender') :
    dev' = dev ∧ sender' = sender := by
  by_cases hne : dev' = dev
  · subst hne
    simp only [ClaimedBy, setDevice, Function.update_self, Option.some.injEq] at hd
    exact ⟨rfl, hd.symm⟩
  · have hold : s.ClaimedBy dev' sender' := by
      simpa [ClaimedBy, setDevice, Function.update_of_ne hne] using hd
    have hdefault' := h.isDefault dev' sender' hold
    rw [hdefault, Option.some.injEq] at hdefault'
    exact absurd hdefault'.symm hne

/-- A lost name is handled, device by device. -/
theorem SerialInv.nameLost {s : State δ σ υ} (h : s.SerialInv) {i : ℕ} {name : σ}
    {devices : List δ} (hi : s.calls i = some (.nameLost name devices)) (env : Answers υ) :
    (s.next i env (.nameLost name devices)).SerialInv := by
  have hnone : ∀ c', s.calls i = some c' → ¬ c'.IsClients := by
    intro c' hc'
    rw [hi, Option.some.injEq] at hc'
    exact hc' ▸ id
  have hgoOn : ∀ {t : State δ σ υ} {rest : List δ} (c' : Call δ σ υ),
      (t.goOn i (.nameLost name rest)).calls i = some c' → ¬ c'.IsClients := by
    intro t rest c' hc'
    obtain rfl := eq_of_goOn hc'
    exact id
  rcases devices with _ | ⟨dev, devices⟩
  · exact h.release hnone (fun _ h' => done_none h') (fun _ hj => done_calls hj)
      (fun _ _ hd => hd) rfl rfl
  · simp only [State.next, BaseDevice.handleNameLost]
    split_ifs
    · exact h.release hnone (fun _ h' => done_none h') (fun _ hj => done_calls hj)
        (fun _ _ hd => (claimedBy_of_release hd).2) rfl rfl
    · exact h.release hnone hgoOn (fun _ hj => goOn_calls hj) (fun _ _ hd => hd) rfl rfl

/-- **A step of a call** keeps what is known. -/
theorem SerialInv.next {s : State δ σ υ} (h : s.SerialInv) {i : ℕ} {c : Call δ σ υ}
    (hi : s.calls i = some c) (env : Answers υ) : (s.next i env c).SerialInv := by
  have hfacts := h.facts i c hi
  cases c with
  | getUserInfo dev sender username claimed =>
      simp only [State.next]
      rcases env.userInfo with err | userInfo
      · exact h.client_done hi trivial id
      · dsimp only
        split_ifs
        · exact h.client_goOn hi trivial id hfacts
        · exact h.client_goOn hi trivial id hfacts
  | isClaimed dev sender userInfo =>
      simp only [State.next]
      split_ifs
      · exact h.client_goOn hi trivial id hfacts
      · exact h.client_goOn hi trivial id hfacts
  | claimInfo dev sender userInfo => exact h.client_goOn hi trivial id hfacts
  | releaseOld dev sender userInfo old =>
      simp only [State.next]
      rcases hclaim : (s.devices dev).claim old.sender old.userInfo false env.driver with err | d
      · exact h.client_done hi trivial id
      · obtain ⟨-, -, rfl⟩ := BaseDevice.claim_false_ok hclaim
        refine h.client_release hi trivial id (fun _ hj => goOn_calls hj)
          (fun _ _ hd => (claimedBy_of_release hd).2) rfl rfl ?_
        intro c' h'
        obtain rfl := eq_of_goOn h'
        exact hfacts
  | claim dev sender userInfo =>
      simp only [State.next]
      rcases hclaim : (s.devices dev).claim (some sender) (some userInfo) true env.driver with
        err | d
      · exact h.client_done hi trivial id
      · obtain rfl := BaseDevice.claim_true_ok hclaim
        refine h.client hi trivial (fun _ hj => goOn_calls hj) ?_ ?_ ?_
        · intro dev' sender' hd
          rw [(h.only hfacts hd).1]
          exact hfacts
        · intro c' h'
          obtain rfl := eq_of_goOn h'
          exact fun dev' sender' hd => (h.only hfacts hd).2
        · intro hrec
          exact absurd trivial (hrec (.setClaimInfo sender userInfo) (by simp [State.goOn]))
  | setClaimInfo sender userInfo =>
      refine h.client hi trivial (fun _ hj => done_calls hj) h.isDefault
        (fun _ h' => done_none h') ?_
      intro _ dev sender' hd
      exact congrArg some (hfacts dev sender' hd).symm
  | release dev sender userInfo =>
      simp only [State.next]
      rcases hclaim : (s.devices dev).claim (some sender) (some userInfo) false env.driver with
        err | d
      · exact h.client_done hi trivial id
      · obtain ⟨-, -, rfl⟩ := BaseDevice.claim_false_ok hclaim
        exact h.client_release hi trivial id (fun _ hj => done_calls hj)
          (fun _ _ hd => (claimedBy_of_release hd).2) rfl rfl fun _ h' => done_none h'
  | targetIsClaimed devInfo =>
      simp only [State.next]
      split_ifs
      · exact h.client_release hi trivial id (fun _ hj => done_calls hj) (fun _ _ hd => hd) rfl rfl
          fun _ h' => done_none h'
      · rcases hdefault : s.defaultDevice with _ | oldDev
        · exact h.client_goOn hi trivial id (h.free hdefault fun dev hdev => by cases hdev)
        · exact h.client_goOn hi trivial id trivial
  | oldIsClaimed devInfo =>
      rcases hdefault : s.defaultDevice with _ | oldDev
      · simp only [State.next, hdefault]
        exact h.client_goOn hi trivial id (h.free hdefault fun dev hdev => by cases hdev)
      · simp only [State.next, hdefault]
        split_ifs with hclaimed
        · exact h.client_release hi trivial id (fun _ hj => done_calls hj) (fun _ _ hd => hd)
            hdefault.symm rfl fun _ h' => done_none h'
        · refine h.client_goOn hi trivial id (h.free hdefault ?_)
          intro dev hdev
          cases hdev
          exact Bool.not_eq_true _ ▸ hclaimed
  | setDefault devInfo =>
      refine h.client hi trivial (fun _ hj => done_calls hj) ?_ (fun _ h' => done_none h') ?_
      · intro dev sender hd
        exact absurd hd (hfacts dev sender)
      · intro _ dev sender hd
        exact absurd hd (hfacts dev sender)
  | nameLost name devices => exact h.nameLost hi env

/-- A client's call comes in, when no other is under way. -/
theorem SerialInv.begin {s t : State δ σ υ} (h : s.SerialInv) {i : ℕ} {c : Call δ σ υ}
    (hserial : ∀ j c, s.calls j = some c → ¬ c.IsClients)
    (hcalls : t.calls = Function.update s.calls i (some c)) (hdevices : t.devices = s.devices)
    (hdefault : t.defaultDevice = s.defaultDevice) (hinfo : t.claimInfo = s.claimInfo)
    (hfacts : t.Facts c) : t.SerialInv := by
  have hclaimed : ∀ {dev sender}, t.ClaimedBy dev sender → s.ClaimedBy dev sender := by
    intro dev sender hd
    rw [ClaimedBy, hdevices] at hd
    exact hd
  have honly : ∀ {j c'}, t.calls j = some c' → c'.IsClients → j = i := by
    intro j c' hc' hclient
    by_contra hne
    rw [hcalls, Function.update_of_ne hne] at hc'
    exact hserial j c' hc' hclient
  constructor
  · intro j k c₁ c₂ h₁ h₂ hc₁ hc₂
    rw [honly h₁ hc₁, honly h₂ hc₂]
  · intro dev sender hd
    rw [hdefault]
    exact h.isDefault dev sender (hclaimed hd)
  · intro j c' hc'
    by_cases hj : j = i
    · rw [hj, hcalls, Function.update_self, Option.some.injEq] at hc'
      exact hc' ▸ hfacts
    · cases c' with
      | nameLost => trivial
      | _ => exact absurd (honly hc' trivial) hj
  · intro _ dev sender hd
    rw [hinfo]
    refine h.known ?_ dev sender (hclaimed hd)
    intro j c' hc' hrec
    cases c' with
    | setClaimInfo => exact hserial j _ hc' trivial
    | _ => exact hrec

/-- **Each step** of calls that do not overlap keeps what is known. -/
theorem SerialInv.step {allDevices : List δ} {deviceInfoList : List (DeviceInfo δ)}
    {s t : State δ σ υ} (h : s.SerialInv) {a : ClaimAction σ υ} {u : Unit} (hserial : s.Serial a)
    (hs : s.step allDevices deviceInfoList a = some (t, u)) : t.SerialInv := by
  obtain ⟨t', hmove, heq⟩ := Option.map_eq_some_iff.mp hs
  cases heq
  cases a with
  | claim i sender username claimed =>
      simp only [move, Option.ite_none_right_eq_some] at hmove
      obtain ⟨-, hmove⟩ := hmove
      rcases hdefault : s.defaultDevice with _ | dev
      · rw [hdefault] at hmove
        cases hmove
        exact h
      · rw [hdefault] at hmove
        cases hmove
        exact h.begin hserial rfl rfl rfl rfl hdefault
  | setDefaultDevice i deviceName =>
      simp only [move, Option.ite_none_right_eq_some] at hmove
      obtain ⟨-, hmove⟩ := hmove
      rcases hfind : findDevice deviceInfoList deviceName with _ | devInfo
      · rw [hfind] at hmove
        cases hmove
        exact h
      · simp only [hfind] at hmove
        split_ifs at hmove
        · cases hmove
          exact h.begin hserial rfl rfl rfl rfl trivial
        · cases hmove
          exact h
  | nameLost i name =>
      simp only [move, Option.ite_none_right_eq_some] at hmove
      obtain ⟨hi, hmove⟩ := hmove
      cases hmove
      refine h.release ?_ ?_ (fun _ hj => goOn_calls hj) (fun _ _ hd => hd) rfl rfl
      · intro c hc
        rw [hc] at hi
        cases hi
      · intro c hc
        obtain rfl := eq_of_goOn hc
        exact id
  | next i env =>
      obtain ⟨c, hc, rfl⟩ := Option.map_eq_some_iff.mp hmove
      exact h.next hc env

/-- At first no call is under way. -/
theorem serialInv_init (defaultDevice : Option δ) :
    (init defaultDevice : State δ σ υ).SerialInv where
  one _ _ _ _ hc := by cases hc
  isDefault _ _ hd := by cases hd
  facts _ _ hc := by cases hc
  known _ _ _ hd := by cases hd

/-- Where the calls of clients do not overlap nothing goes wrong, whichever clients come and go
between their steps. -/
theorem along_orderly_of_serial {allDevices : List δ} {deviceInfoList : List (DeviceInfo δ)}
    {defaultDevice : Option δ} {acts : List (ClaimAction σ υ)}
    (hserial : Along (step allDevices deviceInfoList) Serial (init defaultDevice) acts) :
    Along (step allDevices deviceInfoList) Orderly (init defaultDevice) acts := by
  refine Along.of_invariant (P := Serial) (I := fun s => s.SerialInv) ?_ ?_
    (serialInv_init defaultDevice) hserial
  · intro s a t u hinv hser hs
    exact hinv.step hser hs
  · intro s a hinv _
    exact hinv.orderly a

/-- **Exclusive claims.** In every state of a run, at most one device is claimed, it is the default
device, and the manager knows who holds it when no `Claim` is under way, exactly where nothing goes
wrong along the run: every device that is claimed is still the default one by then, a device is made
the default one only while no other is claimed, and the last `Claim` under way leaves the client in
the manager that holds the device. So it is in the runs in which calls of clients do not overlap. -/
theorem exclusive_iff (allDevices : List δ) (deviceInfoList : List (DeviceInfo δ))
    (defaultDevice : Option δ) (acts : List (ClaimAction σ υ)) :
    ((∀ cs (s : State δ σ υ) us, cs <+: acts →
        run (step allDevices deviceInfoList) (init defaultDevice) cs = some (s, us) →
          s.Exclusive) ↔
      Along (step allDevices deviceInfoList) Orderly (init defaultDevice) acts) ∧
    (Along (step allDevices deviceInfoList) Serial (init defaultDevice) acts →
      Along (step allDevices deviceInfoList) Orderly (init defaultDevice) acts) := by
  refine ⟨reached_iff_along (J := fun _ => True) (fun _ _ _ _ _ _ => trivial) ?_ ?_ trivial
    (exclusive_init defaultDevice) acts, along_orderly_of_serial⟩
  · intro s a t u _ h hs
    exact exclusive_step_iff h hs
  · intro s a hs
    cases a with
    | next i env =>
        intro c hc
        simp [step, move, hc] at hs
    | claim | setDefaultDevice | nameLost => trivial

/-! ## A claim of the device that was the default one -/

/-- The user is known, and the driver answers well. -/
def goodAnswers : Answers String := ⟨.ok "uos", .ok⟩

/-- A client that claims the default device is overtaken by one that makes another device the
default one: it then holds a device that is not. -/
theorem claims_old_default :
    ¬ ∀ (δ σ υ : Type) [DecidableEq δ] [DecidableEq σ] (allDevices : List δ)
        (deviceInfoList : List (DeviceInfo δ)) (defaultDevice : Option δ)
        (acts : List (ClaimAction σ υ)) (s : State δ σ υ) us,
      run (step allDevices deviceInfoList) (init defaultDevice) acts = some (s, us) →
        s.Exclusive := by
  intro hall
  have h := hall Bool String String [true, false] [⟨"a", true, true⟩, ⟨"b", true, false⟩]
    (some true)
    [.claim 0 ":1.5" "uos" true, .setDefaultDevice 1 "b", .next 1 goodAnswers, .next 1 goodAnswers,
      .next 1 goodAnswers, .next 0 goodAnswers, .next 0 goodAnswers, .next 0 goodAnswers] _ _ rfl
  have hdefault := h.isDefault true ":1.5" rfl
  cases hdefault

end State

end claim

end LingmoAuthenticate.Fingerprint
