import LingmoAuthenticate.Face.Start

/-!
# A client that is gone: the tasks of `face/manager_ifc.go`

The name of a connection that is lost is handed to every task of the signal, as the `string` that
comes with it. A task compares it with the sender of its caller, which is a `dbus.Sender`, and two
values of an interface are equal only where their types are.

* `fn_string`: no task is concerned by a `string`.
* `Spares`: what every step of a round keeps: nothing is sent, and no active action loses its task.
* `nameLost_iff`: after a round exactly the actions of the client have ended exactly where it had
  none.
-/

namespace LingmoAuthenticate.Face

open Lib

/-! ## The tasks -/

/-- A value of an interface, by its dynamic type: a plain string, or one of the type that the
manager uses for senders. A comparison of two interfaces is false where their types differ. -/
inductive Interface where
  | string (value : String)
  | sender (value : String)
  deriving DecidableEq, Repr

/-- The `EnrollStatus` or `VerifyStatus` signal. Source: `face/manager.go`, `Manager`. -/
structure StatusSignal where
  action : FaceAction
  id : String
  user : String
  code : ℤ
  msg : String
  deriving DecidableEq, Repr

/-- Source: `authcommon/face.go`, `FaceEnrollException` and `FaceVerifyException`. -/
def exceptionCode : FaceAction → ℤ
  | .enroll => 12
  | .verify => 12

namespace Manager

/-- Whether it is concerned, whether its task is to be deleted, and the caller.
Source: `face/manager.go`, `Manager.isConcernedSignalNameLost`. -/
def isConcernedSignalNameLost (m : Manager) (id : String) (paras : List Interface) :
    Bool × Bool × Option CallerInfo :=
  match m.callInfoMap.lookup id with
  | none => (false, true, none)
  | some caller =>
      if paras = [.sender caller.sender] then (true, true, some caller) else (false, false, none)

end Manager

/-- What the function of a task sends, and whether its task is to be deleted.
Source: `face/manager_ifc.go`, in `Manager.StartEnroll` and `Manager.StartVerify`. -/
def NameLostTask.fn (task : NameLostTask) (m : Manager) (id : String) (paras : List Interface) :
    List StatusSignal × Bool :=
  match m.isConcernedSignalNameLost id paras with
  | (true, needDel, some caller) =>
      ([⟨task.action, caller.id, task.username, exceptionCode task.action, "service quited"⟩],
        needDel)
  | (_, needDel, _) => ([], needDel)

/-- The manager in a round of the tasks that a client's leaving sets off, with the signals that were
sent in it so far. -/
structure Round where
  manager : Manager
  sent : List StatusSignal

/-- The loop over the tasks begins, goes on or ends; a goroutine runs its function, or deletes its
task. -/
inductive RoundAction where
  | doSignalTask (order : List String)
  | visit
  | unlock
  | run (t : ℕ)
  | complete (t : ℕ)
  deriving DecidableEq, Repr

namespace Round

/-- A step of the task manager. -/
def onTasks (s : Round) (sent : List StatusSignal) (a : Task.TaskAction) : Option (Round × Unit) :=
  (s.manager.tasks.step a).map fun r =>
    (⟨{ s.manager with tasks := r.1 }, s.sent ++ sent⟩, ())

/-- One step of the round of a signal that comes with `paras`. Source: `authenticate/manager.go`,
`Manager.listenDBusSignalNameLost`, and `task/manager.go`, `Manager.DoSignalTask`. -/
def step (paras : List Interface) (s : Round) : RoundAction → Option (Round × Unit)
  | .doSignalTask order => s.onTasks [] (.doSignalTask "NameLost" order)
  | .visit => s.onTasks [] .visit
  | .unlock => s.onTasks [] .unlock
  | .run t =>
      match s.manager.tasks.tasks t with
      | none => none
      | some g =>
          match s.manager.fns g.ref with
          | none => none
          | some task =>
              let r := task.fn s.manager g.id paras
              s.onTasks r.1 (.taskReturned t r.2)
  | .complete t => s.onTasks [] (.complete t)

end Round

namespace Manager

/-! ## What a round leaves -/

/-- An enrolment or a verification that is under way: its caller is known and its task waits. -/
def Active (m : Manager) (id : String) (caller : CallerInfo) : Prop :=
  m.callInfoMap.lookup id = some caller ∧ (m.tasks.registered "NameLost" id).isSome = true

/-- No goroutine of an earlier round is about to delete the task of a known caller. -/
def Settled (m : Manager) : Prop :=
  ∀ t id ref, m.tasks.tasks t = some ⟨"NameLost", id, ref, some true⟩ →
    m.callInfoMap.lookup id = none

/-- No loop and no goroutine of the signal is under way. -/
def Quiet (m : Manager) : Prop :=
  m.tasks.loop = none ∧ ∀ t g, m.tasks.tasks t = some g → g.signal ≠ "NameLost"

/-- Exactly the actions of the client were sent an exception and lost their tasks, and no other one
was sent anything. -/
structure EndsActions (m : Manager) (name : String) (s : Round) : Prop where
  ended : ∀ id caller, m.Active id caller → caller.sender = name →
    (∃ sig ∈ s.sent, sig.id = id ∧ sig.code = exceptionCode sig.action) ∧
      s.manager.tasks.registered "NameLost" id = none
  spared : ∀ id caller, m.Active id caller → caller.sender ≠ name →
    (∀ sig ∈ s.sent, sig.id ≠ id) ∧
      s.manager.tasks.registered "NameLost" id = m.tasks.registered "NameLost" id

/-- What every step of a round keeps: nothing is sent, the callers stay, and so do the tasks of
those that are known. -/
structure Spares (m : Manager) (s : Round) : Prop where
  sent : s.sent = []
  callInfoMap : s.manager.callInfoMap = m.callInfoMap
  settled : s.manager.Settled
  tasks : ∀ id, (m.callInfoMap.lookup id).isSome = true →
    s.manager.tasks.registered "NameLost" id = m.tasks.registered "NameLost" id

section

variable {m : Manager} {s t : Round} {name id : String}

/-- **No task is concerned by a `string`**; one is deleted where its caller is not known. -/
theorem fn_string (task : NameLostTask) (m : Manager) (id name : String) :
    task.fn m id [.string name] = ([], (m.callInfoMap.lookup id).isNone) := by
  unfold NameLostTask.fn isConcernedSignalNameLost
  rcases m.callInfoMap.lookup id with _ | caller
  · rfl
  · have hne : ¬ [Interface.string name] = [.sender caller.sender] := by simp
    dsimp only
    rw [if_neg hne]
    rfl

/-- A step of the task manager that sends nothing, deletes no task of a known caller, and after
which no goroutine is about to. -/
theorem Spares.onTasks {a : Task.TaskAction} {u : Unit} (h : m.Spares s)
    (hs : s.onTasks [] a = some (t, u))
    (hkept : ∀ tasks e, s.manager.tasks.step a = some (tasks, e) →
      (∀ id, (m.callInfoMap.lookup id).isSome = true →
        tasks.registered "NameLost" id = s.manager.tasks.registered "NameLost" id) ∧
      ∀ t id ref, tasks.tasks t = some ⟨"NameLost", id, ref, some true⟩ →
        m.callInfoMap.lookup id = none) : m.Spares t := by
  obtain ⟨⟨tasks, e⟩, htasks, heq⟩ := Option.map_eq_some_iff.mp hs
  obtain ⟨hreg, hsettled⟩ := hkept tasks e htasks
  cases heq
  refine ⟨?_, h.callInfoMap, fun t id ref ht => ?_, fun id hid => ?_⟩
  · rw [List.append_nil, h.sent]
  · rw [h.callInfoMap]
    exact hsettled t id ref ht
  · exact (hreg id hid).trans (h.tasks id hid)

/-- No goroutine is about to delete the task of a known caller. -/
theorem Spares.pending (h : m.Spares s) {n : ℕ} {id : String} {ref : ℕ}
    (hn : s.manager.tasks.tasks n = some ⟨"NameLost", id, ref, some true⟩) :
    m.callInfoMap.lookup id = none := by
  rw [← h.callInfoMap]
  exact h.settled n id ref hn

/-- A function that runs asks for the deletion of its task where its caller is not known. -/
theorem Spares.run {n : ℕ} {u : Unit} (h : m.Spares s)
    (hs : s.step [.string name] (.run n) = some (t, u)) : m.Spares t := by
  unfold Round.step at hs
  dsimp only at hs
  rcases hg : s.manager.tasks.tasks n with _ | g
  · rw [hg] at hs
    cases hs
  rw [hg] at hs
  dsimp only at hs
  rcases hfn : s.manager.fns g.ref with _ | task
  · rw [hfn] at hs
    cases hs
  rw [hfn] at hs
  dsimp only at hs
  rw [fn_string, h.callInfoMap] at hs
  refine h.onTasks hs fun tasks e htasks => ?_
  cases Task.Manager.steps_of_step htasks with
  | taskReturned _ signal id ref _ htask =>
      refine ⟨fun _ _ => rfl, fun t id' ref' ht => ?_⟩
      rw [hg, Option.some.injEq] at htask
      by_cases hn : t = n
      · rw [hn] at ht
        replace ht := (Function.update_self n _ s.manager.tasks.tasks).symm.trans ht
        rw [htask, Option.some.injEq, Task.Goroutine.mk.injEq] at ht
        obtain ⟨-, rfl, -, hdel⟩ := ht
        exact Option.isNone_iff_eq_none.mp (Option.some.inj hdel)
      · exact h.pending ((Function.update_of_ne hn _ _).symm.trans ht)

/-- A goroutine that deletes has been asked to. -/
theorem Spares.complete {n : ℕ} {u : Unit} (h : m.Spares s)
    (hs : s.step [.string name] (.complete n) = some (t, u)) : m.Spares t := by
  refine h.onTasks hs fun tasks e htasks => ?_
  cases Task.Manager.steps_of_step htasks with
  | complete _ signal id ref del htask =>
      refine ⟨fun id' hid' => ?_, fun t id' ref' ht => ?_⟩
      · rw [Task.Manager.registered_delete_if]
        split_ifs with hdel
        · obtain ⟨rfl, rfl, rfl⟩ := hdel
          rw [h.pending htask] at hid'
          cases hid'
        · rfl
      · have hother : Function.update s.manager.tasks.tasks n none t =
            some ⟨"NameLost", id', ref', some true⟩ := by
          rcases del with _ | _
          · exact ht
          · rw [if_pos rfl, Task.Manager.tasks_delSignalTask] at ht
            exact ht
        by_cases hn : t = n
        · rw [hn, Function.update_self] at hother
          cases hother
        · rw [Function.update_of_ne hn] at hother
          exact h.pending hother

/-- **Each step** spares the actions. -/
theorem Spares.step {a : RoundAction} {u : Unit} (h : m.Spares s)
    (hs : s.step [.string name] a = some (t, u)) : m.Spares t := by
  cases a with
  | doSignalTask order =>
      refine h.onTasks hs fun tasks e htasks => ?_
      cases Task.Manager.steps_of_step htasks with
      | doSignalTask _ _ _ hdo =>
          refine ⟨fun id _ => Task.Manager.registered_doSignalTask hdo _ _, fun t id ref ht => ?_⟩
          rw [Task.Manager.tasks_doSignalTask hdo] at ht
          exact h.pending ht
  | visit =>
      refine h.onTasks hs fun tasks e htasks => ?_
      cases Task.Manager.steps_of_step htasks with
      | visit signal id rest hloop =>
          refine ⟨fun id _ => Task.Manager.registered_visit _ _ _, fun t id' ref ht => ?_⟩
          rcases Task.Manager.tasks_visit ht with ht' | hnone
          · exact h.pending ht'
          · cases hnone
  | unlock =>
      refine h.onTasks hs fun tasks e htasks => ?_
      cases Task.Manager.steps_of_step htasks with
      | unlock signal hloop => exact ⟨fun _ _ => rfl, fun _ _ _ => h.pending⟩
  | run n => exact h.run hs
  | complete n => exact h.complete hs

/-- **A round** spares the actions. -/
theorem spares_run (h : m.Settled) {acts : List RoundAction} {us : List Unit}
    (hr : run (Round.step [.string name]) ⟨m, []⟩ acts = some (s, us)) : m.Spares s :=
  run_invariant_of_step (I := m.Spares) (fun _ _ _ _ h hs => h.step hs)
    ⟨rfl, rfl, h, fun _ _ => rfl⟩ hr

/-- **A client that is gone** has ended exactly its actions exactly where it had none: at each point
of the round that `DoSignalTask` begins, and so when the round is over. -/
theorem nameLost_iff (hsettled : m.Settled) {order : List String} {acts : List RoundAction}
    {us : List Unit}
    (hr : run (Round.step [.string name]) ⟨m, []⟩ (.doSignalTask order :: acts) = some (s, us)) :
    m.EndsActions name s ↔ ∀ id caller, m.Active id caller → caller.sender ≠ name := by
  have hspares := spares_run hsettled hr
  constructor
  · intro h id caller hactive hsender
    obtain ⟨⟨sig, hsig, -⟩, -⟩ := h.ended id caller hactive hsender
    rw [hspares.sent] at hsig
    cases hsig
  · intro hnone
    constructor
    · exact fun id caller hactive hsender => absurd hsender (hnone id caller hactive)
    · intro id caller hactive _
      refine ⟨fun sig hsig => ?_, hspares.tasks id ?_⟩
      · rw [hspares.sent] at hsig
        cases hsig
      · rw [hactive.1]
        rfl

/-- Where no goroutine runs, none is about to delete. -/
theorem settled_of_idle (h : ∀ t, m.tasks.tasks t = none) : m.Settled := by
  intro t id ref ht
  rw [h t] at ht
  cases ht

end

/-- The camera does what it is told. -/
def readyCamera : StartAnswers := { silentCamera with startVerify := fun _ _ _ => some (.ok ()) }

/-- One client verifies. -/
def oneVerification : Manager :=
  (oneCamera.startVerify readyCamera ":1.5" "uos" "com.lingmo.face" 10).1

/-- The one task is run. -/
def oneRound : List RoundAction := [.doSignalTask ["0"], .visit, .unlock, .run 0, .complete 0]

theorem settled_oneVerification : oneVerification.Settled := settled_of_idle fun _ => rfl

/-- With the name as a `dbus.Sender`, the verification would end. -/
example : (run (Round.step [.sender ":1.5"]) ⟨oneVerification, []⟩ oneRound).map (fun r =>
    (r.1.sent, r.1.manager.tasks.registered "NameLost" "0")) =
      some ([⟨.verify, "0", "uos", 12, "service quited"⟩], none) := by
  decide +kernel

/-- Another client is gone. -/
theorem nameLost_other : ∃ s us,
    run (Round.step [.string ":1.6"]) ⟨oneVerification, []⟩ oneRound = some (s, us) ∧
      oneVerification.EndsActions ":1.6" s := by
  obtain ⟨s, us, hr⟩ : ∃ s us,
      run (Round.step [.string ":1.6"]) ⟨oneVerification, []⟩ oneRound = some (s, us) :=
    ⟨_, _, rfl⟩
  refine ⟨s, us, hr, (nameLost_iff settled_oneVerification hr).mpr ?_⟩
  rintro id caller ⟨hcaller, -⟩ hsender
  have hmem : caller.sender ∈ oneVerification.callInfoMap.entries.map fun e => e.2.sender :=
    List.mem_map_of_mem (f := fun e : Σ _ : String, CallerInfo => e.2.sender)
      (AList.mem_lookup_iff.mp hcaller)
  rw [hsender] at hmem
  exact absurd hmem (by decide)

/-- The client itself is gone, and its verification goes on. -/
theorem nameLost_unheard :
    ¬ ∀ (m : Manager) (name : String) (order : List String) (acts : List RoundAction) (s : Round)
        (us : List Unit), m.Settled →
      run (Round.step [.string name]) ⟨m, []⟩ (.doSignalTask order :: acts) = some (s, us) →
        s.manager.Quiet → m.EndsActions name s := by
  intro hall
  obtain ⟨s, us, caller, hr, hloop, hidle, hactive, hsender, hsent⟩ : ∃ s us caller,
      run (Round.step [.string ":1.5"]) ⟨oneVerification, []⟩ oneRound = some (s, us) ∧
      s.manager.tasks.loop = none ∧ (∀ t, s.manager.tasks.tasks t = none) ∧
      oneVerification.Active "0" caller ∧ caller.sender = ":1.5" ∧ s.sent = [] := by
    refine ⟨_, _, _, rfl, rfl, fun t => ?_, ⟨rfl, rfl⟩, rfl, rfl⟩
    cases t with
    | zero => rfl
    | succ t => rfl
  have hquiet : s.manager.Quiet := ⟨hloop, fun t g ht => by rw [hidle t] at ht; cases ht⟩
  have h := hall _ _ _ _ s us settled_oneVerification hr hquiet
  obtain ⟨⟨sig, hsig, -⟩, -⟩ := h.ended "0" caller hactive hsender
  rw [hsent] at hsig
  cases hsig

end Manager

end LingmoAuthenticate.Face
