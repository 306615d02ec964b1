import LingmoAuthenticate.UKey.Single

/-!
# The default device: `ukey/manager.go`

The table of the services and the choice of a default one are two variables, and each handler
changes them one after the other. The choice is made anew where it was of the service that has gone,
or where there was none.

* `HasDefault`: the default device is a service of the table, or there is neither.
* `hasDefault_loadDefaultDevice`, `hasDefault_selectDefaultDeviceFromMap`: what a choice comes to.
* `HasDefault.step`: each event and each call keeps it.
* `hasDefault_run`: in every run there is a default device where there is a service, and a
  verification that asks for it does not fail for want of one.
-/

namespace LingmoAuthenticate.UKey

open Lib AuthCommon
open MultiFactor (Dir DirEvent)

namespace Services

/-- The default device is a service of the table, or there is neither. -/
def HasDefault (s : Services) : Prop :=
  (s.uKeyServiceMap.lookup s.defaultDevice).isSome ∨
    (s.defaultDevice = "" ∧ s.uKeyServiceMap.entries = ∅)

variable {env : Env} {s : Services}

/-! ## A choice -/

/-- A choice from the table: there is a default device where there was one, or where there was
none by name. -/
theorem hasDefault_selectDefaultDeviceFromMap (h : s.HasDefault ∨ s.defaultDevice = "") :
    (s.selectDefaultDeviceFromMap env).HasDefault := by
  have hranges := env.pick.ranges s.uKeyServiceMap.entries
  unfold selectDefaultDeviceFromMap
  rcases hvisit : env.pick.visit s.uKeyServiceMap.entries with _ | ⟨⟨service, config⟩, es⟩
  · -- no service: the table is empty
    rw [hvisit] at hranges
    have hempty : s.uKeyServiceMap.entries = ∅ := AList.ext (List.nil_perm.mp hranges)
    rcases h with h | h
    · exact h
    · exact .inr ⟨h, hempty⟩
  · left
    have hmem : (⟨service, config⟩ : Σ _ : String, InterfaceConfigWithFileName) ∈
        env.pick.visit s.uKeyServiceMap.entries := by
      rw [hvisit]
      exact List.mem_cons_self ..
    exact Option.isSome_iff_exists.mpr ⟨config, hranges.mem_iff.mp hmem⟩

/-- The device that was saved is a service of the table. -/
theorem hasDefault_loadDefaultDeviceFromFile {s' : Services}
    (h : s.loadDefaultDeviceFromFile env = some s') : s'.HasDefault := by
  unfold loadDefaultDeviceFromFile at h
  obtain ⟨device, -, hdevice⟩ := Option.bind_eq_some_iff.mp h
  rw [Option.ite_none_right_eq_some, Option.some.injEq] at hdevice
  obtain ⟨hany, rfl⟩ := hdevice
  obtain ⟨⟨service, e⟩, he, hservice⟩ := List.any_eq_true.mp hany
  have hlookup := (env.scan.ranges s.uKeyServiceMap.entries).mem_iff.mp he
  rw [decide_eq_true_eq] at hservice
  left
  have hkey : service = device :=
    (s.uKeyServiceMap.service_eq service e hlookup).symm.trans hservice
  exact Option.isSome_iff_exists.mpr ⟨e, hkey ▸ hlookup⟩

/-- A choice, by what was saved or from the table. -/
theorem hasDefault_loadDefaultDevice (h : s.HasDefault ∨ s.defaultDevice = "") :
    (s.loadDefaultDevice env).HasDefault := by
  unfold loadDefaultDevice
  rcases hfile : s.loadDefaultDeviceFromFile env with _ | s'
  · exact hasDefault_selectDefaultDeviceFromMap h
  · exact hasDefault_loadDefaultDeviceFromFile hfile

/-! ## The handlers -/

section handlers

variable {α : Type} {unmarshal : α → InterfaceConfig} {isValid : String → Bool}

theorem hasDefault_init (env : Env) (dir : Dir α) : (init unmarshal isValid env dir).HasDefault :=
  hasDefault_loadDefaultDevice (.inr rfl)

/-- A service that is recorded. -/
theorem HasDefault.record (h : s.HasDefault) (config : InterfaceConfigWithFileName)
    (hne : s.defaultDevice ≠ "") :
    HasDefault { s with uKeyServiceMap := s.uKeyServiceMap.record config } := by
  rcases h with h | h
  · left
    dsimp only
    rw [ServiceMap.lookup_record]
    split_ifs
    · rfl
    · exact h
  · exact absurd h.1 hne

/-- A service that is deleted, and is not the default one. -/
theorem HasDefault.delete (h : s.HasDefault) {service : String} (hne : s.defaultDevice ≠ service)
    (hservice : (s.uKeyServiceMap.lookup service).isSome) :
    HasDefault { s with uKeyServiceMap := s.uKeyServiceMap.delete service } := by
  rcases h with h | ⟨-, hempty⟩
  · left
    dsimp only
    rw [ServiceMap.lookup_delete, if_neg hne]
    exact h
  · rw [ServiceMap.lookup, hempty] at hservice
    cases hservice

/-- **An event** leaves a default device where there is a service. -/
theorem HasDefault.dispatch (h : s.HasDefault) (env : Env) (dir : Dir α) (ev : DirEvent) :
    (s.dispatch unmarshal isValid env dir ev).HasDefault := by
  unfold Services.dispatch
  rcases ev.op with _ | _ | _
  · dsimp only
    unfold loadServiceConfigAndUpdateDefaultDevice
    rcases loadInterfaceConfig unmarshal isValid dir ev.name interfaceTypeUKey with err | config
    · exact h
    · dsimp only
      split_ifs with hnone
      · exact hasDefault_loadDefaultDevice (.inr hnone)
      · exact h.record _ hnone
  · dsimp only
    unfold updateDeviceAndDefaultDevice
    rcases loadInterfaceConfig unmarshal isValid dir ev.name interfaceTypeUKey with err | config
    · exact h
    · dsimp only
      split_ifs
      · exact hasDefault_selectDefaultDeviceFromMap (.inl h)
      · exact h
  · dsimp only
    unfold removeConfigAndUpdateDefaultDevice
    rcases hfind : (env.scan.visit s.uKeyServiceMap.entries).find?
        (fun e => e.2.fileName = ev.name) with _ | ⟨service, e⟩
    · rw [hfind]
      exact h
    · rw [hfind]
      have hlookup := (env.scan.ranges s.uKeyServiceMap.entries).mem_iff.mp
        (List.mem_of_find?_eq_some hfind)
      dsimp only
      split_ifs with hdefault
      · exact hasDefault_selectDefaultDeviceFromMap (.inr rfl)
      · refine h.delete ?_ (Option.isSome_iff_exists.mpr ⟨e, hlookup⟩)
        rwa [s.uKeyServiceMap.service_eq service e hlookup] at hdefault

/-- **A choice by the client** is a service of the table, or changes nothing. -/
theorem HasDefault.setDefaultDevice (h : s.HasDefault) (device : String) :
    (s.setDefaultDevice device).1.HasDefault := by
  unfold Services.setDefaultDevice
  split_ifs with hdevice
  · exact .inl hdevice
  · exact h

/-! ## Runs -/

/-- An event of the directory, with what its handler finds there, or a call of a client. -/
inductive DefaultAction (α : Type) where
  | event (env : Env) (dir : Dir α) (ev : DirEvent)
  | setDefaultDevice (device : String)

variable (unmarshal isValid) in
/-- One step, with nothing observed. -/
def defaultStep (s : Services) : DefaultAction α → Option (Services × Unit)
  | .event env dir ev => some (s.dispatch unmarshal isValid env dir ev, ())
  | .setDefaultDevice device => some ((s.setDefaultDevice device).1, ())

theorem HasDefault.step {t : Services} {a : DefaultAction α} {u : Unit} (h : s.HasDefault)
    (hs : defaultStep unmarshal isValid s a = some (t, u)) : t.HasDefault := by
  cases a with
  | event env dir ev =>
      cases hs
      exact h.dispatch env dir ev
  | setDefaultDevice device =>
      cases hs
      exact h.setDefaultDevice device

/-- Where there is a default device, asking for it fails because no device can be made of it, or
because there is no service. -/
theorem HasDefault.getDefaultDevice_error (h : s.HasDefault) {env : CallEnv} {err : String}
    (herr : s.getDefaultDevice env = .error err) :
    (∃ config, env.newCommonDevice config = .error err) ∨ s.uKeyServiceMap.entries = ∅ := by
  rcases h with h | h
  · left
    obtain ⟨e, he⟩ := Option.isSome_iff_exists.mp h
    have hmem := (env.order.ranges s.uKeyServiceMap.entries).mem_iff.mpr he
    unfold getDefaultDevice at herr
    rcases hfind : (env.order.visit s.uKeyServiceMap.entries).find?
        (fun e => e.2.service = s.defaultDevice) with _ | e'
    · have hne := List.find?_eq_none.mp hfind _ hmem
      rw [decide_eq_true_eq] at hne
      exact absurd (s.uKeyServiceMap.service_eq s.defaultDevice e he) hne
    · rw [hfind] at herr
      dsimp only at herr
      rcases hnew : env.newCommonDevice e'.2.toInterfaceConfig with err' | u
      · rw [hnew] at herr
        cases herr
        exact ⟨_, hnew⟩
      · rw [hnew] at herr
        cases herr
  · exact .inr h.2

/-- **There is always a default device.** In every run of events and calls, the default device is a
service of the table, or there is neither; and a verification that asks for it fails because no
device can be made of it, or because there is no service. -/
theorem hasDefault_run {env₀ : Env} {dir₀ : Dir α} {acts : List (DefaultAction α)} {us : List Unit}
    (hrun : run (defaultStep unmarshal isValid) (init unmarshal isValid env₀ dir₀) acts =
      some (s, us)) :
    s.HasDefault ∧ ∀ (env : CallEnv) (serviceName err : String),
      s.newDevice env serviceName true = .error err →
        (∃ config, env.newCommonDevice config = .error err) ∨ s.uKeyServiceMap.entries = ∅ := by
  have h : s.HasDefault :=
    run_invariant_of_step (fun _ _ _ _ h hs => h.step hs) (hasDefault_init env₀ dir₀) hrun
  exact ⟨h, fun _ _ _ herr => h.getDefaultDevice_error herr⟩

end handlers

/-- Nothing was saved as the default device. -/
def noneSaved : Env := ⟨.listed _ _, .listed _ _, none⟩

/-- A directory with one key. -/
def oneKey : Dir InterfaceConfig :=
  AList.singleton "ukey.json" ⟨"com.lingmo.ukey", "/com/lingmo/ukey", "com.lingmo.ukey", 2, 1⟩

/-- A file of a service comes, and the service is chosen. -/
def keyComes : List (DefaultAction InterfaceConfig) :=
  [.event noneSaved oneKey ⟨"ukey.json", .create⟩, .setDefaultDevice "com.lingmo.ukey"]

/-- Without a file there is no service. -/
theorem init_noFiles : init id (fun _ => true) noneSaved ∅ = ⟨.empty, ""⟩ := by
  have hnone : getInterfaceConfigs id (fun _ => true) ∅ interfaceTypeUKey = [] := by
    unfold getInterfaceConfigs readDir
    rw [AList.keys_empty, List.mergeSort_nil, List.filterMap_nil]
  unfold init loadAllConfigs loadAll
  rw [hnone]
  rfl

/-- The service is the default device then. -/
theorem hasDefault_keyComes : ∃ s us,
    run (defaultStep id fun _ => true) (init id (fun _ => true) noneSaved ∅) keyComes =
      some (s, us) ∧ s.defaultDevice = "com.lingmo.ukey" ∧
      s.HasDefault ∧ ∀ (env : CallEnv) (serviceName err : String),
        s.newDevice env serviceName true = .error err →
          (∃ config, env.newCommonDevice config = .error err) ∨ s.uKeyServiceMap.entries = ∅ := by
  obtain ⟨s, us, hrun, hdefault⟩ : ∃ s us,
      run (defaultStep id fun _ => true) (init id (fun _ => true) noneSaved ∅) keyComes =
        some (s, us) ∧ s.defaultDevice = "com.lingmo.ukey" := by
    rw [init_noFiles]
    exact ⟨_, _, rfl, rfl⟩
  exact ⟨s, us, hrun, hdefault, hasDefault_run hrun⟩

end Services

end LingmoAuthenticate.UKey
