import Mathlib.Data.List.Perm.Basic
import LingmoAuthenticate.UKey.Single

/-!
# Binding a dongle to a session: `Manager.SetSessionPath`

A dongle is told the session that it verifies for. Where the user has no session yet, a task waits
for one: it is registered under the name of the user, and the id that it passes on is the one that
it is registered under. Each session that comes runs every task in a goroutine of its own, which
deletes its id when it has found its user.

* `Binding`: the verifications, the tasks and their goroutines, and the calls that were made.
* `Owing`: who waits for a session, and the calls that are owed: those that would have been made at
  once, had the session been there.
* `Agrees`: the calls that were made, and those that the goroutines are about to make, are the calls
  that are owed.
* `bound_iff`: a run stays so exactly where each session finds nobody who waits, or one verification
  whose id is the name of its user.
-/

namespace LingmoAuthenticate.UKey

open Lib

/-! ## The tasks -/

/-- Source: `ukey/device.go`, `uKeyType`. -/
def typeDongle : ℤ := 1

/-- A call of a device. Source: `ukey/common_device.go`, `commonDevice.setSessionPath`. -/
structure SetSessionPath where
  dev : Device
  username : String
  id : String
  path : String
  deriving DecidableEq, Repr

/-- The call for a verification whose user has a session. -/
def sessionCall (dev : Device) (id : String) (userInfo : UserInfo) : SetSessionPath :=
  ⟨dev, userInfo.uuid, id, userInfo.sessionPath⟩

/-- What a function that waits for a session has captured: the device of its verification, and the
name of the user. -/
structure SessionTask where
  dev : Device
  user : String
  deriving DecidableEq, Repr

/-- A new session, with what is found out about it: whether it is a graphical one, whose it is, and
what is known of its user. -/
structure Session where
  gui : Bool
  username : String
  userInfo : Option UserInfo
  deriving DecidableEq, Repr

/-- A function that waits for a session: it makes its call, or none. The id is that of the
registration. Source: `ukey/interface.go`, `fn` in `Manager.SetSessionPath`. -/
def SessionTask.fn (task : SessionTask) (id : String) (session : Session) : Option SetSessionPath :=
  if session.gui = false then none
  else if session.username = "" then none
  else if task.user ≠ session.username then none
  else session.userInfo.map (sessionCall task.dev id)

/-- A goroutine that runs such a function for the verification `id`, with the session that has
come. -/
structure SessionGoroutine where
  id : String
  task : SessionTask
  session : Session
  deriving DecidableEq, Repr

/-- The call that a goroutine is about to make. -/
def SessionGoroutine.call (g : SessionGoroutine) : Option SetSessionPath := g.task.fn g.id g.session

/-- The verifications; the tasks, each under the name of its user; the goroutines that run, and
those whose function has returned, by what they are to delete; and the calls that were made.
Source: `ukey/manager.go`, `Manager`, and `task/manager.go`, `Manager`. -/
structure Binding where
  verifications : Verifications
  tasks : GoMap String SessionTask
  running : List SessionGoroutine
  returned : List (String × Bool)
  made : List SetSessionPath
  user_eq : ∀ user task, tasks.lookup user = some task → task.user = user

/-- Who waits for a session, by the id of the verification, and the calls of devices that are owed
to those whose session has come. -/
structure Owing where
  waiting : GoMap String DeviceInfo
  owed : List SetSessionPath

/-- What happens: a call that is not about a session; a verification is to be bound; a session
comes; a function runs; a goroutine deletes its id. -/
inductive SessionAction where
  | call (a : Verifications.Action)
  | setSessionPath (id : String) (type0 : Except String ℤ) (device : Option String)
  | sessionNew (session : Session) (order : GoMap.RangeOrder String SessionTask)
  | run (n : ℕ)
  | delete (n : ℕ)

namespace Binding

/-- Source: `task/manager.go`, `Manager.AddSignalTask`, for the signal of new sessions. -/
def addSignalTask (s : Binding) (dev : Device) (user : String) : Binding where
  verifications := s.verifications
  tasks := s.tasks.insert user ⟨dev, user⟩
  running := s.running
  returned := s.returned
  made := s.made
  user_eq user' task h := by
    by_cases hne : user' = user
    · rw [hne, AList.lookup_insert, Option.some.injEq] at h
      rw [← h, hne]
    · rw [AList.lookup_insert_ne hne] at h
      exact s.user_eq user' task h

/-- A task is deleted, whosoever it is. Source: the goroutine in `task/manager.go`,
`Manager.DoSignalTask`. -/
def delSignalTask (s : Binding) (user : String) : Binding where
  verifications := s.verifications
  tasks := s.tasks.erase user
  running := s.running
  returned := s.returned
  made := s.made
  user_eq user' task h := by
    by_cases hne : user' = user
    · rw [hne, AList.lookup_erase] at h
      cases h
    · rw [AList.lookup_erase_ne hne] at h
      exact s.user_eq user' task h

/-- The call is made at once where the user has a session; `device` is how it fails, if it does.
Source: `ukey/interface.go`, `Manager.SetSessionPath`. -/
def setSessionPath (s : Binding) (id : String) (type0 : Except String ℤ) (device : Option String) :
    Binding × Option String :=
  match s.verifications.infos.lookup id with
  | none => (s, some (VerifyError.notFound id).text)
  | some info =>
      match type0 with
      | .error err => (s, some err)
      | .ok type0 =>
          if type0 ≠ typeDongle then (s, none)
          else if info.sessionPath = "" then (s.addSignalTask info.dev info.username, none)
          else ({ s with
            made := s.made ++ [sessionCall info.dev id ⟨info.uuid, info.sessionPath⟩] }, device)

/-- A goroutine for each task. Source: `task/manager.go`, `Manager.DoSignalTask`. -/
def sessionNew (s : Binding) (session : Session) (order : GoMap.RangeOrder String SessionTask) :
    Binding :=
  { s with running := s.running ++ (order.visit s.tasks).map fun e => ⟨e.1, e.2, session⟩ }

/-- A function runs, and returns. -/
def runTask (s : Binding) (n : ℕ) : Option Binding :=
  s.running[n]?.map fun g => { s with
    running := s.running.eraseIdx n
    returned := s.returned ++ [(g.id, g.call.isSome)]
    made := s.made ++ g.call.toList }

/-- A goroutine deletes its id, if its function has returned true. -/
def delete (s : Binding) (n : ℕ) : Option Binding :=
  s.returned[n]?.map fun r =>
    let s := { s with returned := s.returned.eraseIdx n }
    if r.2 then s.delSignalTask r.1 else s

/-- One step. -/
def move (s : Binding) : SessionAction → Option Binding
  | .call a => (s.verifications.step a).map fun r => { s with verifications := r.1 }
  | .setSessionPath id type0 device => some (s.setSessionPath id type0 device).1
  | .sessionNew session order => some (s.sessionNew session order)
  | .run n => s.runTask n
  | .delete n => s.delete n

/-- The calls that the goroutines are about to make. -/
def pending (s : Binding) : List SetSessionPath := s.running.filterMap SessionGoroutine.call

/-- The manager has started. -/
def init (services : Services) : Binding where
  verifications := .new services
  tasks := ∅
  running := []
  returned := []
  made := []
  user_eq _ _ h := by cases h

end Binding

/-! ## What is owed -/

/-- The user whose graphical session it is, where it is known. -/
def Session.opened (session : Session) : Option UserInfo :=
  if session.gui = true ∧ session.username ≠ "" then session.userInfo else none

namespace Owing

/-- A verification of a dongle is owed its call, at once or when the session of its user comes. -/
def setSessionPath (o : Owing) (m : Verifications) (id : String) (type0 : Except String ℤ) :
    Owing :=
  match m.infos.lookup id, type0 with
  | some info, .ok type0 =>
      if type0 ≠ typeDongle then o
      else if info.sessionPath = "" then { o with waiting := o.waiting.insert id info }
      else { o with owed := o.owed ++ [sessionCall info.dev id ⟨info.uuid, info.sessionPath⟩] }
  | _, _ => o

/-- Who waits for the user. -/
def waitingFor (o : Owing) (username : String) : List (Σ _ : String, DeviceInfo) :=
  o.waiting.entries.filter fun e => e.2.username = username

/-- Each verification of the user that waits is owed the call that it would have had. -/
def sessionNew (o : Owing) (session : Session) : Owing :=
  match session.opened with
  | none => o
  | some userInfo =>
      { waiting := o.waiting.keep fun _ v => v.username ≠ session.username
        owed := o.owed ++ (o.waitingFor session.username).map fun e =>
          sessionCall e.2.dev e.1 userInfo }

/-- One step. -/
def move (o : Owing) (m : Verifications) : SessionAction → Owing
  | .setSessionPath id type0 _ => o.setSessionPath m id type0
  | .sessionNew session _ => o.sessionNew session
  | _ => o

end Owing

namespace Binding

/-- One step of both, with nothing observed: the calls are read from the states. -/
def step (s : Binding × Owing) (a : SessionAction) : Option ((Binding × Owing) × Unit) :=
  (s.1.move a).map fun t => ((t, s.2.move s.1.verifications a), ())

/-- The calls that were made, and those that are about to be made, are those that are owed. -/
def Agrees (s : Binding × Owing) : Prop := (s.1.made ++ s.1.pending).Perm s.2.owed

/-- Nobody waits for the user and there is no task for it; or one verification waits, its id is the
name of the user, and the task has its device. -/
def WaitsAlone (s : Binding × Owing) (username : String) : Prop :=
  (s.1.tasks.lookup username = none ∧
    ∀ id v, s.2.waiting.lookup id = some v → v.username ≠ username) ∨
  ∃ task v, s.1.tasks.lookup username = some task ∧ s.2.waiting.lookup username = some v ∧
    v.username = username ∧ task.dev = v.dev ∧
      ∀ id v', s.2.waiting.lookup id = some v' → v'.username = username → id = username

/-- What a session finds. -/
def Fits (s : Binding × Owing) : SessionAction → Prop
  | .sessionNew session _ => session.opened.isSome = true → WaitsAlone s session.username
  | _ => True

/-! ## One step -/

section

variable {s t : Binding × Owing} {session : Session} {userInfo : UserInfo}
  {order : GoMap.RangeOrder String SessionTask}

/-- A session that is opened has a call for the task of its user, and for no other one. -/
theorem fn_eq (task : SessionTask) (id : String) (session : Session) :
    task.fn id session = if task.user = session.username then
      session.opened.map (sessionCall task.dev id) else none := by
  unfold SessionTask.fn Session.opened
  split_ifs <;> simp_all

/-- The calls that a session brings. -/
theorem pending_sessionNew (b : Binding) :
    (b.sessionNew session order).pending = b.pending ++
      ((b.tasks.lookup session.username).bind fun task =>
        session.opened.map (sessionCall task.dev session.username)).toList := by
  have hloop : (order.visit b.tasks).filterMap (fun e => e.2.fn e.1 session) =
      ((b.tasks.lookup session.username).bind fun task =>
        task.fn session.username session).toList := by
    refine (order.ranges b.tasks).filterMap_eq (f := fun e => e.2.fn e.1 session) ?_
    intro e he hne
    have huser := b.user_eq e.1 e.2 ((order.ranges b.tasks).mem_iff.mp he)
    rw [fn_eq, if_neg fun h => hne (huser.symm.trans h)]
  unfold pending sessionNew
  rw [List.filterMap_append, List.filterMap_map]
  refine congrArg (_ ++ ·) (hloop.trans ?_)
  rcases htask : b.tasks.lookup session.username with _ | task
  · rfl
  · rw [Option.bind_some, Option.bind_some, fn_eq, if_pos (b.user_eq _ _ htask)]

/-- Who waits for a user. -/
theorem mem_waitingFor {o : Owing} {username : String} {e : Σ _ : String, DeviceInfo} :
    e ∈ o.waitingFor username ↔ o.waiting.lookup e.1 = some e.2 ∧ e.2.username = username := by
  unfold Owing.waitingFor
  rw [List.mem_filter, decide_eq_true_eq, ← AList.mem_lookup_iff, Option.mem_def]

/-- What is owed for a session is what it brings, exactly where one verification waits, under the
name of the user, or none. -/
theorem waitsAlone_iff {username : String} :
    ((s.1.tasks.lookup username).map fun task =>
        sessionCall task.dev username userInfo).toList.Perm
      ((s.2.waitingFor username).map fun e => sessionCall e.2.dev e.1 userInfo) ↔
      WaitsAlone s username := by
  unfold WaitsAlone
  rcases htask : s.1.tasks.lookup username with _ | task
  · rw [Option.map_none, Option.toList_none, List.nil_perm, List.map_eq_nil_iff,
      List.eq_nil_iff_forall_not_mem]
    constructor
    · intro h
      exact .inl ⟨rfl, fun id v hv hname => h ⟨id, v⟩ (mem_waitingFor.mpr ⟨hv, hname⟩)⟩
    · rintro (⟨-, h⟩ | ⟨_, _, hsome, -⟩)
      · intro e he
        obtain ⟨hv, hname⟩ := mem_waitingFor.mp he
        exact h e.1 e.2 hv hname
      · cases hsome
  · rw [Option.map_some, Option.toList_some, List.singleton_perm, eq_comm,
      List.map_eq_singleton_iff]
    constructor
    · rintro ⟨e, he, hcall⟩
      obtain ⟨hdev, -, hid, -⟩ := SetSessionPath.mk.inj hcall
      obtain ⟨hv, hname⟩ := mem_waitingFor.mp (he ▸ List.mem_singleton_self e)
      refine .inr ⟨task, e.2, rfl, hid ▸ hv, hname, hdev.symm, fun id v' hv' hname' => ?_⟩
      have hmem : (⟨id, v'⟩ : Σ _ : String, DeviceInfo) ∈ s.2.waitingFor username :=
        mem_waitingFor.mpr ⟨hv', hname'⟩
      rw [he, List.mem_singleton] at hmem
      rw [← hid, ← hmem]
    · rintro (⟨hnone, -⟩ | ⟨task', v, htask', hv, hname, hdev, hunique⟩)
      · cases hnone
      obtain rfl : task = task' := Option.some.inj htask'
      refine ⟨⟨username, v⟩, ?_, by rw [hdev]⟩
      have hnd : (s.2.waitingFor username).Nodup :=
        (List.Nodup.of_map _ s.2.waiting.keys_nodup).filter _
      refine List.perm_singleton.mp ((List.perm_ext_iff_of_nodup hnd
        (List.nodup_singleton _)).mpr fun e => ?_)
      rw [List.mem_singleton]
      constructor
      · intro he
        obtain ⟨hv', hname'⟩ := mem_waitingFor.mp he
        have hid := hunique e.1 e.2 hv' hname'
        rw [hid, hv, Option.some.injEq] at hv'
        exact Sigma.ext hid (heq_of_eq hv'.symm)
      · rintro rfl
        exact mem_waitingFor.mpr ⟨hv, hname⟩

/-- **A session** brings the calls that are owed exactly where it finds one verification that waits,
under the name of its user, or none. -/
theorem agrees_sessionNew_iff (h : Agrees s) :
    Agrees (s.1.sessionNew session order, s.2.sessionNew session) ↔
      (session.opened.isSome = true → WaitsAlone s session.username) := by
  unfold Agrees Owing.sessionNew
  rw [pending_sessionNew, ← List.append_assoc]
  rcases hopened : session.opened with _ | userInfo
  · refine iff_of_true ?_ (fun hsome => by cases hsome)
    have hnone : (s.1.tasks.lookup session.username).bind (fun task =>
        Option.map (sessionCall task.dev session.username) none) = none :=
      Option.bind_eq_none_iff.mpr fun _ _ => rfl
    rw [hnone, Option.toList_none, List.append_nil]
    exact h
  · have hbrought : (s.1.tasks.lookup session.username).bind (fun task =>
        Option.map (sessionCall task.dev session.username) (some userInfo)) =
        (s.1.tasks.lookup session.username).map fun task =>
          sessionCall task.dev session.username userInfo := by
      rcases s.1.tasks.lookup session.username with _ | task
      · rfl
      · rfl
    rw [hbrought, ← @waitsAlone_iff _ userInfo]
    have hbefore := h.append_right ((s.1.tasks.lookup session.username).map fun task =>
      sessionCall task.dev session.username userInfo).toList
    rw [Option.isSome_some, forall_prop_of_true rfl]
    exact (Iff.intro hbefore.symm.trans hbefore.trans).trans (List.perm_append_left_iff s.2.owed)

/-- A function that runs makes the call that it was about to make. -/
theorem perm_runTask {b b' : Binding} {n : ℕ} (h : b.runTask n = some b') :
    (b'.made ++ b'.pending).Perm (b.made ++ b.pending) := by
  obtain ⟨g, hg, rfl⟩ := Option.map_eq_some_iff.mp h
  obtain ⟨hn, rfl⟩ := List.getElem?_eq_some_iff.mp hg
  have hperm := (List.getElem_cons_eraseIdx_perm hn).filterMap SessionGoroutine.call
  have hcons : (b.running[n] :: b.running.eraseIdx n).filterMap SessionGoroutine.call =
      b.running[n].call.toList ++ (b.running.eraseIdx n).filterMap SessionGoroutine.call := by
    rw [List.filterMap_cons]
    rcases b.running[n].call with _ | c
    · rfl
    · rfl
  rw [hcons] at hperm
  show (b.made ++ b.running[n].call.toList ++
    (b.running.eraseIdx n).filterMap SessionGoroutine.call).Perm _
  rw [List.append_assoc]
  exact hperm.append_left b.made

/-- A call that is made at once is owed at once. -/
theorem agrees_setSessionPath (h : Agrees s) (id : String) (type0 : Except String ℤ)
    (device : Option String) :
    Agrees ((s.1.setSessionPath id type0 device).1,
      s.2.setSessionPath s.1.verifications id type0) := by
  unfold setSessionPath Owing.setSessionPath
  rcases s.1.verifications.infos.lookup id with _ | info
  · exact h
  rcases type0 with err | type0
  · exact h
  dsimp only
  split_ifs
  · exact h
  · exact h
  · -- made before what is pending, and owed last
    show (s.1.made ++ [_] ++ s.1.pending).Perm (s.2.owed ++ [_])
    rw [List.append_assoc]
    refine (List.perm_append_comm.append_left s.1.made).trans ?_
    rw [← List.append_assoc]
    exact List.Perm.append_right _ h

/-- **One step**: the calls are those that are owed exactly where a session that comes finds one
verification that waits, under the name of its user, or none. -/
theorem agrees_step_iff {a : SessionAction} {u : Unit} (h : Agrees s)
    (hs : step s a = some (t, u)) : Agrees t ↔ Fits s a := by
  obtain ⟨b, hb, heq⟩ := Option.map_eq_some_iff.mp hs
  cases heq
  cases a with
  | call a =>
      obtain ⟨r, -, rfl⟩ := Option.map_eq_some_iff.mp hb
      exact iff_of_true h trivial
  | setSessionPath id type0 device =>
      cases hb
      exact iff_of_true (agrees_setSessionPath h id type0 device) trivial
  | sessionNew session order =>
      cases hb
      exact agrees_sessionNew_iff h
  | run n => exact iff_of_true ((perm_runTask hb).trans h) trivial
  | delete n =>
      obtain ⟨r, -, rfl⟩ := Option.map_eq_some_iff.mp hb
      refine iff_of_true ?_ trivial
      dsimp only
      split_ifs
      · exact h
      · exact h

/-- When all functions have run, the calls that were made are those that are owed. -/
theorem Agrees.made (h : Agrees s) (hrunning : s.1.running = []) : s.1.made.Perm s.2.owed := by
  unfold Agrees pending at h
  rw [hrunning, List.filterMap_nil, List.append_nil] at h
  exact h

/-- **The calls are those that are owed** in a run exactly where each session finds one verification
that waits, under the name of its user, or none. Once all functions have run, all of them have been
made. -/
theorem bound_iff (services : Services) (acts : List SessionAction) :
    ((∀ cs (s : Binding × Owing) us, cs <+: acts →
      run step (init services, ⟨∅, []⟩) cs = some (s, us) → Agrees s) ↔
      Along step Fits (init services, ⟨∅, []⟩) acts) ∧
    ∀ s : Binding × Owing, Agrees s → s.1.running = [] → s.1.made.Perm s.2.owed := by
  refine ⟨reached_iff_along (J := fun _ => True) (fun _ _ _ _ _ _ => trivial)
    (fun s a t u _ h hs => agrees_step_iff h hs) ?_ trivial ?_ acts, fun s h => h.made⟩
  · intro s a hs
    cases a with
    | sessionNew session order => cases hs
    | _ => trivial
  · exact List.Perm.refl []

end

/-- A verification is constructed for alice, who has no session yet, and is to be bound; then her
session comes. -/
def aliceComes : List SessionAction :=
  [.call (.construct Verifications.verifyingEnv "com.lingmo.ukey" "alice" false),
    .setSessionPath "1" (.ok typeDongle) none,
    .sessionNew ⟨true, "alice", some ⟨"1000", "/org/session/2"⟩⟩ (.listed _ _), .run 0]

/-- The device is told the name of alice for the id of the verification. -/
theorem bound_by_name :
    ¬ ∀ (services : Services) (acts : List SessionAction) (s : Binding × Owing) us,
      run step (init services, ⟨∅, []⟩) acts = some (s, us) → Agrees s := by
  intro hall
  obtain ⟨s, us, hrun, hmade, howed⟩ : ∃ (s : Binding × Owing) (us : List Unit),
      run step (init Verifications.oneService, ⟨∅, []⟩) aliceComes = some (s, us) ∧
        s.1.made ++ s.1.pending =
          [⟨⟨"com.lingmo.ukey", "1"⟩, "1000", "alice", "/org/session/2"⟩] ∧
        s.2.owed = [⟨⟨"com.lingmo.ukey", "1"⟩, "1000", "1", "/org/session/2"⟩] :=
    ⟨_, _, rfl, rfl, rfl⟩
  have h := hall _ _ s us hrun
  unfold Agrees at h
  rw [hmade, howed] at h
  exact absurd h (by decide)

end Binding

end LingmoAuthenticate.UKey
