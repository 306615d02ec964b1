import Mathlib.Algebra.GroupWithZero.Nat
import Mathlib.Data.List.Infix
import LingmoAuthenticate.Lib.GoMap
import LingmoAuthenticate.Lib.Machine

/-!
# The task manager: `task/manager.go`

Functions are registered under a signal and an id, and run when the signal comes: a blocking one in
the loop of `DoSignalTask`, under the lock, any other in a goroutine, which deletes its id by itself
when the function has asked for it. Every registration makes a `funcInfo` of its own; it is known
by the number of its pointer, and so is every goroutine.

* `Manager.step` is one step of a call or of a goroutine; the event that it is observed by says what
  has ended a registration, if anything.
* `StaysRegistered`: what is registered goes only by a deletion, a newer registration or its own
  function.
* `tasks_stay_iff`: that is so exactly in the runs in which each goroutine that deletes finds its
  own registration under its id, or nothing (`CompletesOwn`); so in those in which nothing is
  registered under an id while a goroutine of the id is under way (`AddsApart`).
-/

namespace LingmoAuthenticate.Task

open Lib

/-- What is registered under a signal and an id: the function (`ref` is its pointer), and whether
the loop waits for it or runs it in a goroutine. Source: `task/manager.go`, `funcInfo`. -/
structure FuncInfo where
  ref : ℕ
  blockRun : Bool
  deriving DecidableEq, Repr

/-- A goroutine that runs what was registered under a signal and an id, as `ref`; `del` is what the
function has returned, once it has, and says whether the registration is to be deleted. -/
structure Goroutine where
  signal : String
  id : String
  ref : ℕ
  del : Option Bool
  deriving DecidableEq, Repr

/-- How far the loop of a `DoSignalTask` is: the ids to come, and the blocking function that is
being called. -/
structure Loop where
  signal : String
  rest : List String
  calling : Option (String × ℕ)
  deriving DecidableEq, Repr

/-- The registrations by signal and id, the number of pointers made so far, the call of
`DoSignalTask` that is in its loop and holds the mutex, if there is one, and the goroutines.
Source: `task/manager.go`, `Manager`. -/
structure Manager where
  signalTasks : GoMap String (GoMap String FuncInfo)
  refs : ℕ
  loop : Option Loop
  spawned : ℕ
  tasks : ℕ → Option Goroutine

/-- What happens: a call, a round of the loop, or a goroutine goes on. `order` is the order in which
the loop visits the ids, and `fn` says whether there is a function. -/
inductive TaskAction where
  | addSignalTask (signal id : String) (fn blockRun : Bool)
  | delSignalTask (signal id : String)
  | doSignalTask (signal : String) (order : List String)
  | visit
  | returned (del : Bool)
  | unlock
  | taskReturned (t : ℕ) (del : Bool)
  | complete (t : ℕ)
  deriving DecidableEq, Repr

/-- What has happened: a registration, a deletion by a client, or the end of the function that is
registered as `ref`. -/
inductive TaskEvent where
  | added (signal id : String)
  | deleted (signal id : String)
  | done (signal id : String) (ref : ℕ) (del : Bool)
  | silent
  deriving DecidableEq, Repr

namespace Manager

/-- Source: `task/manager.go`, `newManager`. -/
def new : Manager := ⟨∅, 0, none, 0, fun _ => none⟩

/-- What is registered under a signal and an id. -/
def registered (m : Manager) (signal id : String) : Option FuncInfo :=
  (m.signalTasks.lookup signal).bind fun funcs => funcs.lookup id

/-- Source: `task/manager.go`, `Manager.AddSignalTask`. -/
def addSignalTask (m : Manager) (signal id : String) (fn blockRun : Bool) : Manager :=
  if fn then
    let funcs := (m.signalTasks.lookup signal).getD ∅
    { m with
      signalTasks := m.signalTasks.insert signal (funcs.insert id ⟨m.refs, blockRun⟩)
      refs := m.refs + 1 }
  else m

/-- `delete` on the functions of a signal. Source: `task/manager.go`, `Manager.DelSignalTask`. -/
def delSignalTask (m : Manager) (signal id : String) : Manager :=
  match m.signalTasks.lookup signal with
  | some funcs => { m with signalTasks := m.signalTasks.insert signal (funcs.erase id) }
  | none => m

/-- The loop begins. Source: `task/manager.go`, `Manager.DoSignalTask`. -/
def doSignalTask (m : Manager) (signal : String) (order : List String) : Option Manager :=
  match m.signalTasks.lookup signal with
  | some funcs => if order.Perm funcs.keys then some { m with loop := some ⟨signal, order, none⟩ }
      else none
  | none => some { m with loop := some ⟨signal, [], none⟩ }

/-- The next id of the loop: one that is gone by now is passed over.
Source: `task/manager.go`, the body of the loop of `Manager.DoSignalTask`. -/
def visit (m : Manager) (signal id : String) (rest : List String) : Manager :=
  match m.registered signal id with
  | none => { m with loop := some ⟨signal, rest, none⟩ }
  | some info =>
      if info.blockRun then { m with loop := some ⟨signal, rest, some (id, info.ref)⟩ }
      else { m with
        loop := some ⟨signal, rest, none⟩
        spawned := m.spawned + 1
        tasks := Function.update m.tasks m.spawned (some ⟨signal, id, info.ref, none⟩) }

/-- One step. The calls of clients wait while a loop holds the mutex; the goroutines delete without
it. -/
def step (m : Manager) : TaskAction → Option (Manager × TaskEvent)
  | .addSignalTask signal id fn blockRun =>
      if m.loop.isNone then
        some (m.addSignalTask signal id fn blockRun, if fn then .added signal id else .silent)
      else none
  | .delSignalTask signal id =>
      if m.loop.isNone then some (m.delSignalTask signal id, .deleted signal id) else none
  | .doSignalTask signal order =>
      if m.loop.isNone then (m.doSignalTask signal order).map fun m' => (m', .silent) else none
  | .visit =>
      match m.loop with
      | some ⟨signal, id :: rest, none⟩ => some (m.visit signal id rest, .silent)
      | _ => none
  | .returned del =>
      match m.loop with
      | some ⟨signal, rest, some (id, ref)⟩ =>
          let m' := { m with loop := some ⟨signal, rest, none⟩ }
          some (if del then m'.delSignalTask signal id else m', .done signal id ref del)
      | _ => none
  | .unlock =>
      match m.loop with
      | some ⟨_, [], none⟩ => some ({ m with loop := none }, .silent)
      | _ => none
  | .taskReturned t del =>
      match m.tasks t with
      | some ⟨signal, id, ref, none⟩ =>
          some ({ m with tasks := Function.update m.tasks t (some ⟨signal, id, ref, some del⟩) },
            .silent)
      | _ => none
  | .complete t =>
      match m.tasks t with
      | some ⟨signal, id, ref, some del⟩ =>
          let m' := { m with tasks := Function.update m.tasks t none }
          some (if del then m'.delSignalTask signal id else m', .done signal id ref del)
      | _ => none

/-- What a step does, case by case. -/
inductive Steps (m : Manager) : TaskAction → Manager → TaskEvent → Prop where
  | addSignalTask (signal id : String) (fn blockRun : Bool) (hfree : m.loop = none) :
      Steps m (.addSignalTask signal id fn blockRun) (m.addSignalTask signal id fn blockRun)
        (if fn then .added signal id else .silent)
  | delSignalTask (signal id : String) (hfree : m.loop = none) :
      Steps m (.delSignalTask signal id) (m.delSignalTask signal id) (.deleted signal id)
  | doSignalTask {m' : Manager} (signal : String) (order : List String) (hfree : m.loop = none)
      (hdo : m.doSignalTask signal order = some m') :
      Steps m (.doSignalTask signal order) m' .silent
  | visit (signal id : String) (rest : List String)
      (hloop : m.loop = some ⟨signal, id :: rest, none⟩) :
      Steps m .visit (m.visit signal id rest) .silent
  | returned (signal id : String) (rest : List String) (ref : ℕ) (del : Bool)
      (hloop : m.loop = some ⟨signal, rest, some (id, ref)⟩) :
      Steps m (.returned del)
        (if del then { m with loop := some ⟨signal, rest, none⟩ }.delSignalTask signal id
          else { m with loop := some ⟨signal, rest, none⟩ })
        (.done signal id ref del)
  | unlock (signal : String) (hloop : m.loop = some ⟨signal, [], none⟩) :
      Steps m .unlock { m with loop := none } .silent
  | taskReturned (t : ℕ) (signal id : String) (ref : ℕ) (del : Bool)
      (htask : m.tasks t = some ⟨signal, id, ref, none⟩) :
      Steps m (.taskReturned t del)
        { m with tasks := Function.update m.tasks t (some ⟨signal, id, ref, some del⟩) } .silent
  | complete (t : ℕ) (signal id : String) (ref : ℕ) (del : Bool)
      (htask : m.tasks t = some ⟨signal, id, ref, some del⟩) :
      Steps m (.complete t)
        (if del then { m with tasks := Function.update m.tasks t none }.delSignalTask signal id
          else { m with tasks := Function.update m.tasks t none })
        (.done signal id ref del)

/-- Every step is one of these. -/
theorem steps_of_step {m m' : Manager} {a : TaskAction} {e : TaskEvent}
    (h : step m a = some (m', e)) : Steps m a m' e := by
  cases a with
  | addSignalTask signal id fn blockRun =>
      simp only [step, Option.ite_none_right_eq_some, Option.some.injEq, Prod.mk.injEq,
        Option.isNone_iff_eq_none] at h
      obtain ⟨hfree, rfl, rfl⟩ := h
      exact .addSignalTask signal id fn blockRun hfree
  | delSignalTask signal id =>
      simp only [step, Option.ite_none_right_eq_some, Option.some.injEq, Prod.mk.injEq,
        Option.isNone_iff_eq_none] at h
      obtain ⟨hfree, rfl, rfl⟩ := h
      exact .delSignalTask signal id hfree
  | doSignalTask signal order =>
      simp only [step, Option.ite_none_right_eq_some, Option.map_eq_some_iff, Prod.mk.injEq,
        Option.isNone_iff_eq_none] at h
      obtain ⟨hfree, m₁, hdo, rfl, rfl⟩ := h
      exact .doSignalTask signal order hfree hdo
  | visit =>
      simp only [step] at h
      split at h
      · next signal id rest hloop =>
          cases h
          exact .visit signal id rest hloop
      · cases h
  | returned del =>
      simp only [step] at h
      split at h
      · next signal rest id ref hloop =>
          cases h
          exact .returned signal id rest ref del hloop
      · cases h
  | unlock =>
      simp only [step] at h
      split at h
      · next signal hloop =>
          cases h
          exact .unlock signal hloop
      · cases h
  | taskReturned t del =>
      simp only [step] at h
      split at h
      · next signal id ref htask =>
          cases h
          exact .taskReturned t signal id ref del htask
      · cases h
  | complete t =>
      simp only [step] at h
      split at h
      · next signal id ref del htask =>
          cases h
          exact .complete t signal id ref del htask
      · cases h

/-! ## What the steps leave registered -/

variable {m : Manager} {signal id : String}

/-- A new registration is the only change of the table that adding makes. -/
theorem registered_addSignalTask (fn blockRun : Bool) (signal' id' : String) :
    (m.addSignalTask signal id fn blockRun).registered signal' id' =
      if fn = true ∧ signal' = signal ∧ id' = id then some ⟨m.refs, blockRun⟩
      else m.registered signal' id' := by
  rcases fn with _ | _
  · simp [addSignalTask]
  · by_cases hs : signal' = signal
    · subst hs
      by_cases hid : id' = id
      · subst hid
        simp [addSignalTask, registered, AList.lookup_insert]
      · rw [if_neg (fun h => hid h.2.2)]
        simp only [addSignalTask, if_true, registered, AList.lookup_insert, Option.bind_some,
          AList.lookup_insert_ne hid]
        rcases m.signalTasks.lookup signal' with _ | funcs <;> rfl
    · simp [addSignalTask, registered, AList.lookup_insert_ne hs, hs]

/-- A deletion takes away what is registered under its id. -/
theorem registered_delSignalTask (signal' id' : String) :
    (m.delSignalTask signal id).registered signal' id' =
      if signal' = signal ∧ id' = id then none else m.registered signal' id' := by
  unfold delSignalTask
  rcases hl : m.signalTasks.lookup signal with _ | funcs
  · by_cases hs : signal' = signal
    · subst hs
      simp [registered, hl]
    · simp [hs]
  · by_cases hs : signal' = signal
    · subst hs
      by_cases hid : id' = id
      · subst hid
        simp [registered, AList.lookup_insert, AList.lookup_erase]
      · simp [registered, AList.lookup_insert, AList.lookup_erase_ne hid, hid, hl]
    · simp [registered, AList.lookup_insert_ne hs, hs]

/-- The beginning of a loop registers nothing. -/
theorem registered_doSignalTask {m' : Manager} {order : List String}
    (h : m.doSignalTask signal order = some m') (signal' id' : String) :
    m'.registered signal' id' = m.registered signal' id' := by
  unfold doSignalTask at h
  split at h
  · split_ifs at h
    cases h
    rfl
  · cases h
    rfl

/-- Nor does a round of it. -/
theorem registered_visit (rest : List String) (signal' id' : String) :
    (m.visit signal id rest).registered signal' id' = m.registered signal' id' := by
  unfold visit
  split
  · rfl
  · split_ifs <;> rfl

@[simp] theorem loop_addSignalTask (fn blockRun : Bool) :
    (m.addSignalTask signal id fn blockRun).loop = m.loop := by
  rcases fn with _ | _ <;> rfl

@[simp] theorem loop_delSignalTask : (m.delSignalTask signal id).loop = m.loop := by
  unfold delSignalTask
  split <;> rfl

/-- A loop begins without a function that it waits for. -/
theorem loop_doSignalTask {m' : Manager} {order : List String}
    (h : m.doSignalTask signal order = some m') : ∃ ids, m'.loop = some ⟨signal, ids, none⟩ := by
  unfold doSignalTask at h
  split at h
  · split_ifs at h
    cases h
    exact ⟨order, rfl⟩
  · cases h
    exact ⟨[], rfl⟩

theorem loop_delete_if (del : Bool) :
    (if del then m.delSignalTask signal id else m).loop = m.loop := by
  rcases del with _ | _
  · rfl
  · exact loop_delSignalTask

@[simp] theorem tasks_addSignalTask (fn blockRun : Bool) :
    (m.addSignalTask signal id fn blockRun).tasks = m.tasks := by
  rcases fn with _ | _ <;> rfl

@[simp] theorem tasks_delSignalTask : (m.delSignalTask signal id).tasks = m.tasks := by
  unfold delSignalTask
  split <;> rfl

/-- The beginning of a loop starts no goroutine. -/
theorem tasks_doSignalTask {m' : Manager} {order : List String}
    (h : m.doSignalTask signal order = some m') : m'.tasks = m.tasks := by
  unfold doSignalTask at h
  split at h
  · split_ifs at h
    cases h
    rfl
  · cases h
    rfl

theorem tasks_delete_if (del : Bool) :
    (if del then m.delSignalTask signal id else m).tasks = m.tasks := by
  rcases del with _ | _
  · rfl
  · exact tasks_delSignalTask

/-- A goroutine after a round of a loop was there before, or runs what is registered. -/
theorem tasks_visit_registered {rest : List String} {t : ℕ} {g : Goroutine}
    (h : (m.visit signal id rest).tasks t = some g) :
    m.tasks t = some g ∨ ∃ info, m.registered signal id = some info ∧
      g = ⟨signal, id, info.ref, none⟩ := by
  unfold visit at h
  split at h
  · exact .inl h
  · next info hinfo =>
      split_ifs at h
      · exact .inl h
      · by_cases ht : t = m.spawned
        · rw [ht] at h
          replace h := (Function.update_self m.spawned _ m.tasks).symm.trans h
          exact .inr ⟨info, hinfo, (Option.some.inj h).symm⟩
        · exact .inl ((Function.update_of_ne ht _ _).symm.trans h)

/-- A goroutine after a round of a loop was there before, or its function has not returned. -/
theorem tasks_visit {rest : List String} {t : ℕ} {g : Goroutine}
    (h : (m.visit signal id rest).tasks t = some g) : m.tasks t = some g ∨ g.del = none := by
  rcases tasks_visit_registered h with hg | ⟨info, -, rfl⟩
  · exact .inl hg
  · exact .inr rfl

/-- A deletion that is made for `del` only. -/
theorem registered_delete_if (del : Bool) (signal' id' : String) :
    (if del then m.delSignalTask signal id else m).registered signal' id' =
      if del = true ∧ signal' = signal ∧ id' = id then none else m.registered signal' id' := by
  rcases del with _ | _
  · simp
  · simp [registered_delSignalTask]

/-! ## A registration stays -/

/-- What ends the registration `ref` under a signal and an id: a deletion, a newer registration, or
its own function, when it returns true. -/
def Ends (signal id : String) (ref : ℕ) (e : TaskEvent) : Prop :=
  e = .deleted signal id ∨ e = .added signal id ∨ e = .done signal id ref true

/-- Whatever is registered at some time of the run from `m`, and not ended since, is registered
still. -/
def StaysRegistered (m : Manager) (as : List TaskAction) : Prop :=
  ∀ before during s t evs evs', before ++ during <+: as →
    run step m before = some (s, evs) → run step s during = some (t, evs') →
    ∀ signal id info, s.registered signal id = some info →
      (∀ e ∈ evs', ¬ Ends signal id info.ref e) → t.registered signal id = some info

/-- A goroutine that deletes finds its own registration under its id, or nothing. -/
def CompletesOwn (m : Manager) (a : TaskAction) : Prop :=
  ∀ t signal id ref info, a = .complete t → m.tasks t = some ⟨signal, id, ref, some true⟩ →
    m.registered signal id = some info → info.ref = ref

/-- A step keeps what it does not end. -/
def Keeps (m : Manager) (a : TaskAction) : Prop :=
  ∀ m' e, step m a = some (m', e) → ∀ signal id info, m.registered signal id = some info →
    ¬ Ends signal id info.ref e → m'.registered signal id = some info

/-- What is registered stays over every stretch of a run if it stays over every step. -/
theorem staysRegistered_iff (as : List TaskAction) :
    StaysRegistered m as ↔ Along step Keeps m as := by
  refine (stretches_iff_along
    (R := fun (s : Manager) evs (t : Manager) =>
      ∀ signal id info, s.registered signal id = some info →
        (∀ e ∈ evs, ¬ Ends signal id info.ref e) → t.registered signal id = some info)
    ?_ ?_).trans ?_
  · intro s signal id info hreg _
    exact hreg
  · intro s e t evs u hstep hrest signal id info hreg hends
    refine hrest signal id info (hstep signal id info hreg ?_) ?_
    · intro e' he'
      rw [List.mem_singleton.mp he']
      exact hends e (List.mem_cons_self ..)
    · exact fun e' he' => hends e' (List.mem_cons_of_mem e he')
  · simp only [List.forall_mem_singleton]
    exact Iff.rfl

/-- The blocking function that the loop has called is what is registered, unless a goroutine has
deleted that since. -/
def LoopSound (m : Manager) : Prop :=
  ∀ signal rest id ref info, m.loop = some ⟨signal, rest, some (id, ref)⟩ →
    m.registered signal id = some info → info.ref = ref

/-- The loop holds the mutex, so nothing is registered while it calls a function. -/
theorem loopSound_step {m' : Manager} {a : TaskAction} {e : TaskEvent} (h : m.LoopSound)
    (hstep : step m a = some (m', e)) : m'.LoopSound := by
  intro signal rest id ref info hloop hreg
  cases steps_of_step hstep with
  | addSignalTask signal' id' fn blockRun hfree =>
      rw [loop_addSignalTask, hfree] at hloop
      cases hloop
  | delSignalTask signal' id' hfree =>
      rw [loop_delSignalTask, hfree] at hloop
      cases hloop
  | doSignalTask signal' order hfree hdo =>
      obtain ⟨ids, hids⟩ := loop_doSignalTask hdo
      rw [hids] at hloop
      cases hloop
  | visit signal' id' rest' hloop' =>
      rw [registered_visit] at hreg
      unfold visit at hloop
      split at hloop
      · cases hloop
      · next info' hinfo =>
          split_ifs at hloop
          · cases hloop
            rw [hinfo, Option.some.injEq] at hreg
            rw [hreg]
          · cases hloop
  | returned signal' id' rest' ref' del hloop' =>
      rw [loop_delete_if] at hloop
      cases hloop
  | unlock signal' hloop' => cases hloop
  | taskReturned t signal' id' ref' del htask => exact h signal rest id ref info hloop hreg
  | complete t signal' id' ref' del htask =>
      rw [loop_delete_if] at hloop
      rw [registered_delete_if] at hreg
      split_ifs at hreg
      exact h signal rest id ref info hloop hreg

/-- **When a step keeps what it does not end**: where it is not a goroutine that deletes the
registration of another. -/
theorem keeps_iff (hsound : m.LoopSound) (a : TaskAction) : Keeps m a ↔ CompletesOwn m a := by
  constructor
  · rintro h t signal id ref info rfl htask hreg
    have hstep : step m (.complete t) =
        some ({ m with tasks := Function.update m.tasks t none }.delSignalTask signal id,
          .done signal id ref true) := by
      simp only [step, htask, if_true]
    by_contra hne
    have hkept := h _ _ hstep signal id info hreg
      (by rintro (h | h | h) <;> cases h; exact hne rfl)
    rw [registered_delSignalTask, if_pos ⟨rfl, rfl⟩] at hkept
    cases hkept
  · rintro hown m' e hstep signal id info hreg hends
    cases steps_of_step hstep with
    | addSignalTask signal' id' fn blockRun hfree =>
        rw [registered_addSignalTask, if_neg, hreg]
        rintro ⟨rfl, rfl, rfl⟩
        exact hends (.inr (.inl rfl))
    | delSignalTask signal' id' hfree =>
        rw [registered_delSignalTask, if_neg, hreg]
        rintro ⟨rfl, rfl⟩
        exact hends (.inl rfl)
    | doSignalTask signal' order hfree hdo => rw [registered_doSignalTask hdo, hreg]
    | visit signal' id' rest hloop => rw [registered_visit, hreg]
    | returned signal' id' rest ref del hloop =>
        rw [registered_delete_if, if_neg]
        · exact hreg
        · rintro ⟨rfl, rfl, rfl⟩
          have href := hsound signal rest id ref info hloop hreg
          exact hends (.inr (.inr (by rw [href])))
    | unlock signal' hloop => exact hreg
    | taskReturned t signal' id' ref del htask => exact hreg
    | complete t signal' id' ref del htask =>
        rw [registered_delete_if, if_neg]
        · exact hreg
        · rintro ⟨rfl, rfl, rfl⟩
          have href := hown t signal id ref info rfl htask hreg
          exact hends (.inr (.inr (by rw [href])))

/-! ## Goroutines that are over before the next registration -/

/-- Nothing is registered under a signal and an id while a goroutine of theirs is under way. -/
def AddsApart (m : Manager) (a : TaskAction) : Prop :=
  ∀ signal id blockRun, a = .addSignalTask signal id true blockRun →
    ∀ t g, m.tasks t = some g → g.signal = signal → g.id ≠ id

/-- Each goroutine finds its own registration under its id, or nothing. -/
def RunsOwn (m : Manager) : Prop :=
  ∀ t g info, m.tasks t = some g → m.registered g.signal g.id = some info → info.ref = g.ref

theorem RunsOwn.completesOwn (h : m.RunsOwn) (a : TaskAction) : m.CompletesOwn a :=
  fun t _ _ _ info _ htask hreg => h t _ info htask hreg

/-- **A step keeps it**: a registration that is new has no goroutine yet. -/
theorem runsOwn_step {m' : Manager} {a : TaskAction} {e : TaskEvent} (h : m.RunsOwn)
    (hadds : m.AddsApart a) (hstep : step m a = some (m', e)) : m'.RunsOwn := by
  intro t g info htask hreg
  cases steps_of_step hstep with
  | addSignalTask signal id fn blockRun hfree =>
      rw [tasks_addSignalTask] at htask
      rw [registered_addSignalTask] at hreg
      split_ifs at hreg with hnew
      · obtain ⟨rfl, hsignal, hid⟩ := hnew
        exact absurd hid (hadds signal id blockRun rfl t g htask hsignal)
      · exact h t g info htask hreg
  | delSignalTask signal id hfree =>
      rw [tasks_delSignalTask] at htask
      rw [registered_delSignalTask] at hreg
      split_ifs at hreg
      exact h t g info htask hreg
  | doSignalTask signal order hfree hdo =>
      rw [tasks_doSignalTask hdo] at htask
      rw [registered_doSignalTask hdo] at hreg
      exact h t g info htask hreg
  | visit signal id rest hloop =>
      rw [registered_visit] at hreg
      rcases tasks_visit_registered htask with hg | ⟨info', hinfo, rfl⟩
      · exact h t g info hg hreg
      · rw [hinfo, Option.some.injEq] at hreg
        rw [hreg]
  | returned signal id rest ref del hloop =>
      rw [tasks_delete_if] at htask
      rw [registered_delete_if] at hreg
      split_ifs at hreg
      exact h t g info htask hreg
  | unlock signal hloop => exact h t g info htask hreg
  | taskReturned n signal id ref del hn =>
      by_cases ht : t = n
      · subst ht
        cases (Function.update_self t _ m.tasks).symm.trans htask
        exact h t ⟨signal, id, ref, none⟩ info hn hreg
      · exact h t g info ((Function.update_of_ne ht _ _).symm.trans htask) hreg
  | complete n signal id ref del hn =>
      rw [tasks_delete_if] at htask
      rw [registered_delete_if] at hreg
      split_ifs at hreg
      by_cases ht : t = n
      · subst ht
        cases (Function.update_self t _ m.tasks).symm.trans htask
      · exact h t g info ((Function.update_of_ne ht _ _).symm.trans htask) hreg

/-- **No registered task is lost**, in a run of the calls, the loops and the goroutines, exactly if
each goroutine that deletes finds its own registration under its id, or nothing; so no run loses one
in which nothing is registered under an id while a goroutine of the id is under way. -/
theorem tasks_stay_iff (as : List TaskAction) :
    (StaysRegistered new as ↔ Along step CompletesOwn new as) ∧
    (Along step AddsApart new as → StaysRegistered new as) := by
  have hiff : StaysRegistered new as ↔ Along step CompletesOwn new as := by
    rw [staysRegistered_iff]
    refine along_iff (fun _ _ _ _ => loopSound_step) (fun m a hsound => keeps_iff hsound a) ?_ as
    intro signal rest id ref info hloop
    cases hloop
  refine ⟨hiff, fun hadds => hiff.mpr ?_⟩
  refine hadds.of_invariant (fun _ _ _ _ => runsOwn_step) (fun m a h _ => h.completesOwn a) ?_
  intro t g info htask
  cases htask

/-- A session registers its callback anew while that of an earlier one still runs, which then
deletes it. -/
theorem newer_task_lost : ¬ StaysRegistered new
    [.addSignalTask "TTYChanged" "TTYChanged" true false,
      .doSignalTask "TTYChanged" ["TTYChanged"], .visit, .unlock, .taskReturned 0 true,
      .addSignalTask "TTYChanged" "TTYChanged" true false, .complete 0] := by
  intro h
  have hkept := h
    [.addSignalTask "TTYChanged" "TTYChanged" true false,
      .doSignalTask "TTYChanged" ["TTYChanged"], .visit, .unlock, .taskReturned 0 true,
      .addSignalTask "TTYChanged" "TTYChanged" true false]
    [.complete 0] _ _ _ [.done "TTYChanged" "TTYChanged" 0 true] List.prefix_rfl rfl rfl
    "TTYChanged" "TTYChanged" ⟨1, false⟩ rfl
  have hlost : (none : Option FuncInfo) = some ⟨1, false⟩ := by
    refine hkept ?_
    intro e he hends
    cases List.mem_singleton.mp he
    rcases hends with h | h | h <;> cases h
  cases hlost

end Manager

end LingmoAuthenticate.Task
