import LingmoAuthenticate.Lib.Clock
import LingmoAuthenticate.Lib.GoMap
import LingmoAuthenticate.Lib.Machine
import LingmoAuthenticate.Session.GetResult

/-!
# Privileges: `result_access_privileges.go`

A session lets a master read its result by a registration with `privilegesManager`; a master with
a registration is itself kept to single-factor password authentication. Each session remembers the
id of its registration, and gives it back when `PrivilegesDisable` is called; quitting does not.

* `PrivilegesState.move` is one call of any number of sessions. `PrivilegesEnable` checks first and
  registers later, and other calls may come in between.
* `RegInv`: what is registered is what the exported sessions hold, each under an id of its own.
* `privileges_follow`: where no session quits with a registration, the answers are those of the
  sessions that are still there (`Follow`).
-/

namespace LingmoAuthenticate.Authenticate

open Lib AuthCommon Session

/-- A registration: the program that may read results (`master`), and the one whose results they are
(`agent`). Source: `result_access_privileges.go`, `privilegeConfig`. -/
structure PrivilegeConfig where
  master : String
  agent : String
  deriving DecidableEq, Repr

/-- The orders in which a loop may visit the registrations. -/
abbrev PrivilegeOrder := GoMap.RangeOrder ℤ PrivilegeConfig

/-- What is registered, by the ids that were given out for it, and the last of these ids.
Source: `result_access_privileges.go`, `privilegesManager`. -/
structure PrivilegesManager where
  pConfigs : GoMap ℤ PrivilegeConfig
  pId : ℤ

namespace PrivilegesManager

/-- Source: `result_access_privileges.go`, `newPrivilegesManager`. -/
def new : PrivilegesManager := ⟨∅, 0⟩

/-- Source: `result_access_privileges.go`, `privilegesManager.allow`. -/
def allow (p : PrivilegesManager) (order : PrivilegeOrder) (master agent : String) : Bool :=
  (order.visit p.pConfigs).any fun e => e.2.master = master && e.2.agent = agent

/-- Source: `result_access_privileges.go`, `privilegesManager.isMasterRegistered`. -/
def isMasterRegistered (p : PrivilegesManager) (order : PrivilegeOrder) (masterPath : String) :
    Bool :=
  (order.visit p.pConfigs).any fun e => e.2.master = masterPath

/-- The id of the next registration: the counter is a Go `int`, and passes over zero. -/
def nextId (p : PrivilegesManager) : ℤ :=
  let id := int64 (p.pId + 1)
  if id = 0 then int64 (id + 1) else id

/-- Source: `result_access_privileges.go`, `privilegesManager.register`. -/
def register (p : PrivilegesManager) (c : PrivilegeConfig) : PrivilegesManager :=
  ⟨p.pConfigs.insert p.nextId c, p.nextId⟩

/-- Source: `result_access_privileges.go`, `privilegesManager.unregister`. -/
def unregister (p : PrivilegesManager) (id : ℤ) : PrivilegesManager :=
  { p with pConfigs := p.pConfigs.erase id }

/-- No registration has the id zero, which stands for none. -/
theorem nextId_ne_zero (p : PrivilegesManager) : p.nextId ≠ 0 := by
  unfold nextId
  dsimp only
  split_ifs with h
  · rw [h]
    decide
  · exact h

/-- Whom the loop of `allow` finds, in any order. -/
theorem allow_iff {p : PrivilegesManager} {order : PrivilegeOrder} {master agent : String} :
    p.allow order master agent = true ↔ ∃ id, p.pConfigs.lookup id = some ⟨master, agent⟩ := by
  unfold allow
  rw [List.any_eq_true]
  constructor
  · rintro ⟨⟨id, m, a⟩, he, hb⟩
    simp only [Bool.and_eq_true, decide_eq_true_eq] at hb
    obtain ⟨rfl, rfl⟩ := hb
    exact ⟨id, (order.ranges _).mem_iff.mp he⟩
  · rintro ⟨id, hid⟩
    exact ⟨⟨id, master, agent⟩, (order.ranges _).mem_iff.mpr hid, by simp⟩

/-- Whom the loop of `isMasterRegistered` finds, in any order. -/
theorem isMasterRegistered_iff {p : PrivilegesManager} {order : PrivilegeOrder} {master : String} :
    p.isMasterRegistered order master = true ↔
      ∃ id agent, p.pConfigs.lookup id = some ⟨master, agent⟩ := by
  unfold isMasterRegistered
  rw [List.any_eq_true]
  constructor
  · rintro ⟨⟨id, m, a⟩, he, hb⟩
    obtain rfl : m = master := by simpa using hb
    exact ⟨id, a, (order.ranges _).mem_iff.mp he⟩
  · rintro ⟨id, agent, hid⟩
    exact ⟨⟨id, master, agent⟩, (order.ranges _).mem_iff.mpr hid, by simp⟩

end PrivilegesManager

/-! ## The calls -/

/-- What a session keeps for its privileges and for its end; `enabling` are the calls of
`PrivilegesEnable` that have checked and not yet registered, and `timers` those that quit the
session later. One field is not part of the program: `granted` is what the session has registered
last and not disabled since. Source: `session/manager.go`, `Manager`. -/
structure PrivilegedSession where
  prgPath : String
  pId : ℤ
  enabling : List PrivilegeConfig
  quitMethod : QuitMethod
  isStarted : Bool
  ended : Bool
  canceled : Bool
  quited : Bool
  timers : ℕ
  granted : Option PrivilegeConfig

/-- The registrations, and the sessions by their numbers. -/
structure PrivilegesState where
  manager : PrivilegesManager
  sessions : ℕ → Option PrivilegedSession

/-- What happens. The program that a sender belongs to is found, or is not; `found` is whether the
file of the master is. -/
inductive PrivilegesAction where
  | authenticate (i : ℕ) (prgPath : String) (order : PrivilegeOrder)
  | start (i : ℕ)
  | setQuitFlag (i : ℕ) (method : ℤ)
  | privilegesEnable (i : ℕ) (sender : Option String) (masterPath : String) (found : Bool)
  | registerPrivileges (i : ℕ) (c : PrivilegeConfig)
  | privilegesDisable (i : ℕ) (sender : Option String)
  | endCall (i : ℕ) (flag : ℤ)
  | exitCb (i : ℕ)
  | quit (i : ℕ)
  | quitTimer (i : ℕ)

namespace PrivilegedSession

/-- Source: `session/manager.go`, `NewManager`. -/
def new (prgPath : String) : PrivilegedSession :=
  ⟨prgPath, 0, [], .autoQuit, false, false, false, false, 0, none⟩

/-- The session is no longer exported. Source: `session/manager.go`, `Manager.quit`. -/
def quit (p : PrivilegedSession) : PrivilegedSession := { p with quited := true }

/-- Source: `session/manager.go`, `Manager.endAll`. -/
def endAll (p : PrivilegedSession) : PrivilegedSession :=
  let p := { p with ended := true }
  if p.canceled then p
  else match p.quitMethod with
    | .autoQuit => { p.quit with canceled := true }
    | .manualQuit => { p with timers := p.timers + 1, canceled := true }

/-- Source: `session/manager_ifc.go`, `Manager.Quit`. -/
def quitCall (p : PrivilegedSession) : PrivilegedSession :=
  if p.isStarted = false ∨ p.ended = true then p.quit else p

/-- The checks of a call that asks for a registration.
Source: `session/manager_ifc.go`, `Manager.PrivilegesEnable`, up to the registration. -/
def privilegesEnable (p : PrivilegedSession) (sender : Option String) (masterPath : String)
    (found : Bool) : PrivilegedSession :=
  if masterPath ≠ "" ∧ found = true ∧ sender = some p.prgPath ∧ p.pId = 0 then
    { p with enabling := ⟨masterPath, p.prgPath⟩ :: p.enabling }
  else p

/-- The registration is made. Source: `session/manager_ifc.go`, `Manager.PrivilegesEnable`. -/
def register (p : PrivilegedSession) (c : PrivilegeConfig) (id : ℤ) : PrivilegedSession :=
  { p with enabling := p.enabling.erase c, pId := id, granted := some c }

/-- The registration is given back. Source: `session/manager_ifc.go`, `Manager.PrivilegesDisable`.
-/
def unregister (p : PrivilegedSession) : PrivilegedSession := { p with pId := 0, granted := none }

/-- What the session has registered, while it is exported. -/
def reg (p : PrivilegedSession) : Option (ℤ × PrivilegeConfig) :=
  if p.quited then none else p.granted.map fun c => (p.pId, c)

/-- The session remembers an id exactly while it has a registration. -/
def Remembers (p : PrivilegedSession) : Prop := p.granted = none ↔ p.pId = 0

end PrivilegedSession

namespace PrivilegesState

/-- No session yet. -/
def init : PrivilegesState := ⟨.new, fun _ => none⟩

/-- The state with another state of one session. -/
def setSession (s : PrivilegesState) (i : ℕ) (p : PrivilegedSession) : PrivilegesState :=
  { s with sessions := Function.update s.sessions i (some p) }

/-- A call on an exported session that changes the session alone. -/
def call (s : PrivilegesState) (i : ℕ) (f : PrivilegedSession → PrivilegedSession) :
    Option (PrivilegesState × Option Bool) :=
  (s.sessions i).bind fun p => if p.quited then none else some (s.setSession i (f p), none)

/-- One step; a new session is observed through whether it is kept to single-factor authentication
for being a master. Source: `session/manager.go` and `session/manager_ifc.go`. -/
def move (s : PrivilegesState) : PrivilegesAction → Option (PrivilegesState × Option Bool)
  | .authenticate i prgPath order =>
      if (s.sessions i).isNone then
        some (s.setSession i (.new prgPath), some (s.manager.isMasterRegistered order prgPath))
      else none
  | .start i => s.call i fun p => { p with isStarted := true }
  | .setQuitFlag i method =>
      s.call i fun p => (QuitMethod.ofMethod method).elim p fun q => { p with quitMethod := q }
  | .privilegesEnable i sender masterPath found =>
      s.call i fun p => p.privilegesEnable sender masterPath found
  | .registerPrivileges i c =>
      (s.sessions i).bind fun p =>
        if c ∈ p.enabling then
          some ({ s with manager := s.manager.register c }.setSession i
            (p.register c s.manager.nextId), none)
        else none
  | .privilegesDisable i sender =>
      (s.sessions i).bind fun p =>
        if p.quited then none
        else if sender = some p.prgPath ∧ p.pId ≠ 0 then
          some ({ s with manager := s.manager.unregister p.pId }.setSession i p.unregister, none)
        else some (s, none)
  | .endCall i flag => s.call i fun p => if flag = allAuthenticationFlag then p.endAll else p
  | .exitCb i => s.call i PrivilegedSession.endAll
  | .quit i => s.call i PrivilegedSession.quitCall
  | .quitTimer i =>
      (s.sessions i).bind fun p =>
        if 0 < p.timers then some (s.setSession i { p.quit with timers := p.timers - 1 }, none)
        else none

/-! ## When privileges follow the sessions -/

/-- A session that has registered the pair is exported, and has not disabled it. -/
def Grants (s : PrivilegesState) (c : PrivilegeConfig) : Prop :=
  ∃ i p, s.sessions i = some p ∧ p.quited = false ∧ p.granted = some c

/-- The answers about privileges are those of the sessions that are still there, in whatever order
the map is visited: an agent is allowed to read for a master exactly where such a session grants it,
and a master is registered exactly where one does. -/
structure Follow (s : PrivilegesState) : Prop where
  allow : ∀ order master agent,
    s.manager.allow order master agent = true ↔ s.Grants ⟨master, agent⟩
  master : ∀ order master,
    s.manager.isMasterRegistered order master = true ↔ ∃ agent, s.Grants ⟨master, agent⟩

/-- No session quits with a registration; and a registration is made by an exported session that
has none, under an id that is free. -/
def GivesBack (s : PrivilegesState) : PrivilegesAction → Prop
  | .endCall i flag => flag = allAuthenticationFlag → ∀ p, s.sessions i = some p →
      p.canceled = false → p.quitMethod = .autoQuit → p.pId = 0
  | .exitCb i => ∀ p, s.sessions i = some p →
      p.canceled = false → p.quitMethod = .autoQuit → p.pId = 0
  | .quit i => ∀ p, s.sessions i = some p → p.isStarted = false ∨ p.ended = true → p.pId = 0
  | .quitTimer i => ∀ p, s.sessions i = some p → p.quited = false → p.pId = 0
  | .registerPrivileges i _ => s.manager.pConfigs.lookup s.manager.nextId = none ∧
      ∀ p, s.sessions i = some p → p.quited = false ∧ p.pId = 0
  | _ => True

/-- What a session has registered, while it is exported. -/
def regOf (s : PrivilegesState) (i : ℕ) : Option (ℤ × PrivilegeConfig) :=
  (s.sessions i).bind PrivilegedSession.reg

/-- What is registered is what the exported sessions hold (`registered`), each under an id of its
own (`unique`), and a session that has not quit remembers the id of what it has registered. -/
structure RegInv (s : PrivilegesState) : Prop where
  registered : ∀ id c, s.manager.pConfigs.lookup id = some c ↔ ∃ i, s.regOf i = some (id, c)
  unique : ∀ i j id c c', s.regOf i = some (id, c) → s.regOf j = some (id, c') → i = j
  remembers : ∀ i p, s.sessions i = some p → p.quited = false → p.Remembers

/-- At first there is neither a session nor a registration. -/
theorem regInv_init : init.RegInv := by
  refine ⟨?_, ?_, ?_⟩
  · intro id c
    simp [init, PrivilegesManager.new, regOf]
  · intro i j id c c' h
    cases h
  · intro i p h
    cases h

theorem regOf_setSession (s : PrivilegesState) (i : ℕ) (p : PrivilegedSession) :
    (s.setSession i p).regOf = Function.update s.regOf i p.reg := by
  funext j
  unfold regOf setSession
  by_cases hj : j = i
  · subst hj
    simp
  · simp [Function.update_of_ne hj]

/-- A session goes on, beside a manager in any state, and remembers what it holds. -/
theorem RegInv.remembers_setSession {s : PrivilegesState} (h : s.RegInv) (m : PrivilegesManager)
    {i : ℕ} {p : PrivilegedSession} (hrem : p.quited = false → p.Remembers) {j : ℕ}
    {q : PrivilegedSession} (hq : ({ s with manager := m }.setSession i p).sessions j = some q)
    (hquit : q.quited = false) : q.Remembers := by
  by_cases hj : j = i
  · subst hj
    obtain rfl : p = q := by simpa [PrivilegesState.setSession] using hq
    exact hrem hquit
  · refine h.remembers j q ?_ hquit
    simpa [PrivilegesState.setSession, Function.update_of_ne hj] using hq

/-- A step that leaves the registrations of all sessions, and theirs alone, keeps the invariant. -/
theorem RegInv.setSession {s : PrivilegesState} (h : s.RegInv) {i : ℕ} {p : PrivilegedSession}
    (hreg : p.reg = s.regOf i) (hrem : p.quited = false → p.Remembers) :
    (s.setSession i p).RegInv := by
  have hsame : (s.setSession i p).regOf = s.regOf := by
    rw [regOf_setSession, hreg, Function.update_eq_self]
  refine ⟨?_, ?_, fun j q hq => h.remembers_setSession s.manager hrem hq⟩
  · intro id c
    rw [hsame]
    exact h.registered id c
  · rw [hsame]
    exact h.unique

/-- A registration under a free id, by an exported session that has none. -/
theorem RegInv.register {s : PrivilegesState} (h : s.RegInv) {i : ℕ} {p : PrivilegedSession}
    (hp : s.sessions i = some p) (hquit : p.quited = false) (hnone : p.pId = 0)
    (hfree : s.manager.pConfigs.lookup s.manager.nextId = none) (c : PrivilegeConfig) :
    RegInv ({ s with manager := s.manager.register c }.setSession i
      (p.register c s.manager.nextId)) := by
  have hreg : (p.register c s.manager.nextId).reg = some (s.manager.nextId, c) := by
    simp [PrivilegedSession.reg, PrivilegedSession.register, hquit]
  have hold : s.regOf i = none := by
    have hgranted := (h.remembers i p hp hquit).mpr hnone
    simp [regOf, hp, PrivilegedSession.reg, hquit, hgranted]
  have hother : ∀ j id c', s.regOf j = some (id, c') → j ≠ i ∧ id ≠ s.manager.nextId := by
    intro j id c' hj
    constructor
    · intro hji
      rw [hji, hold] at hj
      cases hj
    · intro hid
      have := (h.registered id c').mpr ⟨j, hj⟩
      rw [hid, hfree] at this
      cases this
  have hafter : ∀ j id c', Function.update s.regOf i (some (s.manager.nextId, c)) j =
      some (id, c') ↔ (j = i ∧ id = s.manager.nextId ∧ c' = c) ∨ s.regOf j = some (id, c') := by
    intro j id c'
    by_cases hj : j = i
    · subst hj
      rw [Function.update_self, hold, Option.some.injEq, Prod.mk.injEq]
      simp [eq_comm]
    · rw [Function.update_of_ne hj]
      simp [hj]
  have hregOf : ({ s with manager := s.manager.register c }.setSession i
      (p.register c s.manager.nextId)).regOf =
        Function.update s.regOf i (some (s.manager.nextId, c)) := by
    rw [regOf_setSession, hreg]
    rfl
  refine ⟨?_, ?_, ?_⟩
  · intro id c'
    rw [hregOf]
    simp only [PrivilegesState.setSession, PrivilegesManager.register]
    by_cases hid : id = s.manager.nextId
    · subst hid
      rw [AList.lookup_insert, Option.some.injEq]
      constructor
      · rintro rfl
        exact ⟨i, (hafter i _ _).mpr (.inl ⟨rfl, rfl, rfl⟩)⟩
      · rintro ⟨j, hj⟩
        rcases (hafter j _ _).mp hj with ⟨-, -, rfl⟩ | hj
        · rfl
        · exact absurd rfl (hother j _ c' hj).2
    · rw [AList.lookup_insert_ne hid, h.registered id c']
      refine exists_congr ?_
      intro j
      rw [hafter]
      simp [hid]
  · intro j k id c₁ c₂ hj hk
    rw [hregOf] at hj hk
    rcases (hafter j _ _).mp hj with ⟨rfl, rfl, -⟩ | hj'
    · rcases (hafter k _ _).mp hk with ⟨rfl, -, -⟩ | hk'
      · rfl
      · exact absurd rfl (hother k _ c₂ hk').2
    · rcases (hafter k _ _).mp hk with ⟨rfl, rfl, -⟩ | hk'
      · exact absurd rfl (hother j _ c₁ hj').2
      · exact h.unique j k id c₁ c₂ hj' hk'
  · intro j q hq hqq
    refine h.remembers_setSession (s.manager.register c) ?_ hq hqq
    intro _
    have hne := s.manager.nextId_ne_zero
    simp [PrivilegedSession.Remembers, PrivilegedSession.register, hne]

/-- A registration is given back by the session that holds it. -/
theorem RegInv.unregister {s : PrivilegesState} (h : s.RegInv) {i : ℕ} {p : PrivilegedSession}
    (hp : s.sessions i = some p) (hquit : p.quited = false) (hsome : p.pId ≠ 0) :
    RegInv ({ s with manager := s.manager.unregister p.pId }.setSession i p.unregister) := by
  obtain ⟨c, hc⟩ : ∃ c, p.granted = some c := by
    refine Option.ne_none_iff_exists'.mp fun hnone => hsome ?_
    exact (h.remembers i p hp hquit).mp hnone
  have hold : s.regOf i = some (p.pId, c) := by
    simp [regOf, hp, PrivilegedSession.reg, hquit, hc]
  have hreg : p.unregister.reg = none := by
    cases hq : p.quited <;> simp [PrivilegedSession.reg, PrivilegedSession.unregister, hq]
  have hafter : ∀ j id c', Function.update s.regOf i none j = some (id, c') ↔
      j ≠ i ∧ s.regOf j = some (id, c') := by
    intro j id c'
    by_cases hj : j = i
    · subst hj
      simp
    · rw [Function.update_of_ne hj]
      simp [hj]
  have hregOf : ({ s with manager := s.manager.unregister p.pId }.setSession i
      p.unregister).regOf = Function.update s.regOf i none := by
    rw [regOf_setSession, hreg]
    rfl
  refine ⟨?_, ?_, ?_⟩
  · intro id c'
    rw [hregOf]
    simp only [PrivilegesState.setSession, PrivilegesManager.unregister]
    by_cases hid : id = p.pId
    · -- no other session holds this id
      subst hid
      rw [AList.lookup_erase]
      constructor
      · intro hcontra
        cases hcontra
      · rintro ⟨j, hj⟩
        obtain ⟨hne, hj'⟩ := (hafter j _ _).mp hj
        exact absurd (h.unique j i _ c' c hj' hold) hne
    · rw [AList.lookup_erase_ne hid, h.registered id c']
      refine exists_congr ?_
      intro j
      rw [hafter]
      refine ⟨fun hj => ⟨fun hji => hid ?_, hj⟩, fun hj => hj.2⟩
      rw [hji, hold, Option.some.injEq, Prod.mk.injEq] at hj
      exact hj.1.symm
  · intro j k id c₁ c₂ hj hk
    rw [hregOf] at hj hk
    exact h.unique j k id c₁ c₂ ((hafter j _ _).mp hj).2 ((hafter k _ _).mp hk).2
  · intro j q hq hqq
    refine h.remembers_setSession (s.manager.unregister p.pId) ?_ hq hqq
    intro _
    simp [PrivilegedSession.Remembers, PrivilegedSession.unregister]

/-! ## The steps -/

/-- What a call on an exported session does. -/
theorem call_eq_some {s s' : PrivilegesState} {i : ℕ} {f : PrivilegedSession → PrivilegedSession}
    {o : Option Bool} (h : s.call i f = some (s', o)) :
    ∃ p, s.sessions i = some p ∧ p.quited = false ∧ s' = s.setSession i (f p) := by
  obtain ⟨p, hp, h⟩ := Option.bind_eq_some_iff.mp h
  rw [Option.ite_none_left_eq_some, Option.some.injEq, Prod.mk.injEq] at h
  exact ⟨p, hp, by simpa using h.1, h.2.1.symm⟩

/-- A call that leaves the registration of its session keeps the invariant. -/
theorem RegInv.call {s s' : PrivilegesState} (h : s.RegInv) {i : ℕ}
    {f : PrivilegedSession → PrivilegedSession} {o : Option Bool} (hs : s.call i f = some (s', o))
    (hf : ∀ p, s.sessions i = some p → p.quited = false → p.Remembers →
      (f p).reg = p.reg ∧ ((f p).quited = false → (f p).Remembers)) : s'.RegInv := by
  obtain ⟨p, hp, hquit, rfl⟩ := call_eq_some hs
  obtain ⟨hreg, hrem⟩ := hf p hp hquit (h.remembers i p hp hquit)
  refine h.setSession ?_ hrem
  rw [hreg, regOf, hp]
  rfl

/-- A session without a registration has none after it quits. -/
theorem quit_reg {p : PrivilegedSession} (hquit : p.quited = false) (hrem : p.Remembers)
    (hnone : p.pId = 0) : p.quit.reg = p.reg := by
  have hgranted := hrem.mpr hnone
  simp [PrivilegedSession.reg, PrivilegedSession.quit, hquit, hgranted]

/-- Ending a whole session keeps its registration, where it quits without one. -/
theorem endAll_reg {p : PrivilegedSession} (hquit : p.quited = false) (hrem : p.Remembers)
    (hnone : p.canceled = false → p.quitMethod = .autoQuit → p.pId = 0) :
    p.endAll.reg = p.reg ∧ (p.endAll.quited = false → p.endAll.Remembers) := by
  unfold PrivilegedSession.endAll
  dsimp only
  cases hc : p.canceled with
  | true => exact ⟨rfl, fun _ => hrem⟩
  | false =>
      cases hm : p.quitMethod with
      | autoQuit => exact ⟨quit_reg hquit hrem (hnone hc hm), fun h => by cases h⟩
      | manualQuit => exact ⟨rfl, fun _ => hrem⟩

/-- **Each step** that gives registrations back keeps the invariant. -/
theorem RegInv.move {s s' : PrivilegesState} (h : s.RegInv) {a : PrivilegesAction}
    {o : Option Bool} (hgives : s.GivesBack a) (hs : s.move a = some (s', o)) : s'.RegInv := by
  cases a with
  | authenticate i prgPath order =>
      simp only [PrivilegesState.move, Option.ite_none_right_eq_some, Option.some.injEq,
        Prod.mk.injEq] at hs
      obtain ⟨hnew, rfl, -⟩ := hs
      refine h.setSession ?_ ?_
      · rw [regOf, Option.isNone_iff_eq_none.mp hnew]
        rfl
      · intro _
        simp [PrivilegedSession.Remembers, PrivilegedSession.new]
  | start i => exact h.call hs fun p _ _ hrem => ⟨rfl, fun _ => hrem⟩
  | setQuitFlag i method =>
      refine h.call hs ?_
      intro p _ _ hrem
      rcases QuitMethod.ofMethod method with _ | q
      · exact ⟨rfl, fun _ => hrem⟩
      · exact ⟨rfl, fun _ => hrem⟩
  | privilegesEnable i sender masterPath found =>
      refine h.call hs ?_
      intro p _ _ hrem
      unfold PrivilegedSession.privilegesEnable
      split_ifs
      · exact ⟨rfl, fun _ => hrem⟩
      · exact ⟨rfl, fun _ => hrem⟩
  | registerPrivileges i c =>
      obtain ⟨p, hp, hs⟩ := Option.bind_eq_some_iff.mp hs
      simp only [Option.ite_none_right_eq_some, Option.some.injEq, Prod.mk.injEq] at hs
      obtain ⟨-, rfl, -⟩ := hs
      obtain ⟨hquit, hnone⟩ := hgives.2 p hp
      exact h.register hp hquit hnone hgives.1 c
  | privilegesDisable i sender =>
      obtain ⟨p, hp, hs⟩ := Option.bind_eq_some_iff.mp hs
      rw [Option.ite_none_left_eq_some, Bool.not_eq_true] at hs
      obtain ⟨hquit, hs⟩ := hs
      split_ifs at hs with hhas
      · cases hs
        exact h.unregister hp hquit hhas.2
      · cases hs
        exact h
  | endCall i flag =>
      refine h.call hs ?_
      intro p hp hquit hrem
      split_ifs with hall
      · exact endAll_reg hquit hrem (hgives hall p hp)
      · exact ⟨rfl, fun _ => hrem⟩
  | exitCb i => exact h.call hs fun p hp hquit hrem => endAll_reg hquit hrem (hgives p hp)
  | quit i =>
      refine h.call hs ?_
      intro p hp hquit hrem
      unfold PrivilegedSession.quitCall
      split_ifs with hmay
      · exact ⟨quit_reg hquit hrem (hgives p hp hmay), fun h => by cases h⟩
      · exact ⟨rfl, fun _ => hrem⟩
  | quitTimer i =>
      obtain ⟨p, hp, hs⟩ := Option.bind_eq_some_iff.mp hs
      simp only [Option.ite_none_right_eq_some, Option.some.injEq, Prod.mk.injEq] at hs
      obtain ⟨-, rfl, -⟩ := hs
      refine h.setSession ?_ fun h => by cases h
      rw [regOf, hp]
      cases hquit : p.quited with
      | true => simp [PrivilegedSession.reg, PrivilegedSession.quit, hquit]
      | false => exact quit_reg hquit (h.remembers i p hp hquit) (hgives p hp hquit)

/-- Where what is registered is what the sessions hold, the answers follow the sessions. -/
theorem RegInv.follow {s : PrivilegesState} (h : s.RegInv) : s.Follow := by
  have hgrants : ∀ c, s.Grants c ↔ ∃ id, s.manager.pConfigs.lookup id = some c := by
    intro c
    simp only [h.registered, regOf, Option.bind_eq_some_iff, PrivilegedSession.reg, Grants]
    constructor
    · rintro ⟨i, p, hp, hquit, hc⟩
      exact ⟨p.pId, i, p, hp, by simp [hquit, hc]⟩
    · rintro ⟨id, i, p, hp, hreg⟩
      simp only [Option.ite_none_left_eq_some, Option.map_eq_some_iff, Prod.mk.injEq,
        Bool.not_eq_true] at hreg
      obtain ⟨hquit, c', hc', -, rfl⟩ := hreg
      exact ⟨i, p, hp, hquit, hc'⟩
  constructor
  · intro order master agent
    rw [PrivilegesManager.allow_iff, hgrants]
  · intro order master
    rw [PrivilegesManager.isMasterRegistered_iff]
    constructor
    · rintro ⟨id, agent, hid⟩
      exact ⟨agent, (hgrants _).mpr ⟨id, hid⟩⟩
    · rintro ⟨agent, hc⟩
      obtain ⟨id, hid⟩ := (hgrants _).mp hc
      exact ⟨id, agent, hid⟩

/-- **Privileges follow the sessions.** In every run of any number of sessions in which no session
quits with a registration, the pairs that are allowed and the masters that are registered are those
of the sessions that are still exported and have not disabled them; so a new session is kept to a
single factor exactly when such a session names its program as a master. -/
theorem privileges_follow {acts : List PrivilegesAction} {s : PrivilegesState}
    {obs : List (Option Bool)} (hrun : run PrivilegesState.move init acts = some (s, obs))
    (hgives : Along PrivilegesState.move GivesBack init acts) :
    s.Follow ∧ ∀ i prgPath order s' forced,
      s.move (.authenticate i prgPath order) = some (s', some forced) →
        (forced = true ↔ ∃ agent, s.Grants ⟨prgPath, agent⟩) := by
  have hinv : s.RegInv := run_invariant (I := RegInv)
    (fun _ _ _ _ h hg hs => h.move hg hs) regInv_init hgives hrun
  refine ⟨hinv.follow, ?_⟩
  intro i prgPath order s' forced hs
  simp only [PrivilegesState.move, Option.ite_none_right_eq_some, Option.some.injEq,
    Prod.mk.injEq] at hs
  obtain ⟨-, -, rfl⟩ := hs
  exact hinv.follow.master order prgPath

/-- A greeter opens a session and lets its display manager read the result. -/
def greeterCalls : List PrivilegesAction :=
  [.authenticate 0 "/usr/sbin/greeter" (.listed _ _),
    .privilegesEnable 0 (some "/usr/sbin/greeter") "/usr/sbin/lightdm" true,
    .registerPrivileges 0 ⟨"/usr/sbin/lightdm", "/usr/sbin/greeter"⟩]

/-- The greeter disables the privileges before it quits. -/
theorem privileges_follow_greeter :
    ∃ s obs, run PrivilegesState.move init
        (greeterCalls ++ [.privilegesDisable 0 (some "/usr/sbin/greeter"), .quit 0]) =
          some (s, obs) ∧ s.Follow := by
  obtain ⟨s, obs, hr⟩ : ∃ s obs, run PrivilegesState.move init
      (greeterCalls ++ [.privilegesDisable 0 (some "/usr/sbin/greeter"), .quit 0]) =
        some (s, obs) := ⟨_, _, rfl⟩
  refine ⟨s, obs, hr, (privileges_follow hr ?_).1⟩
  simp only [greeterCalls, List.cons_append, List.nil_append]
  refine (along_cons_of_eq rfl).mpr ⟨trivial, (along_cons_of_eq rfl).mpr ⟨trivial,
    (along_cons_of_eq rfl).mpr ⟨⟨rfl, ?_⟩, (along_cons_of_eq rfl).mpr ⟨trivial,
      (along_cons_of_eq rfl).mpr ⟨?_, trivial⟩⟩⟩⟩⟩
  · rintro p ⟨⟩
    exact ⟨rfl, rfl⟩
  · rintro p ⟨⟩ -
    rfl

/-- The greeter quits without disabling them: they stay allowed, and no session is left. -/
theorem privileges_outlive_session :
    ¬ ∀ acts s obs, run PrivilegesState.move init acts = some (s, obs) → s.Follow := by
  intro hall
  have h := hall (greeterCalls ++ [.quit 0]) _ _ rfl
  obtain ⟨i, p, hp, hquit, -⟩ :=
    (h.allow (.listed _ _) "/usr/sbin/lightdm" "/usr/sbin/greeter").mp (by decide)
  rcases i with _ | i
  · cases hp
    cases hquit
  · cases hp

end PrivilegesState

end LingmoAuthenticate.Authenticate
