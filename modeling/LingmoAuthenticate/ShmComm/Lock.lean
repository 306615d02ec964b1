import LingmoAuthenticate.Lib.Machine

/-!
# The lock of the shared memory

`shmn_lock_channel` and `shmn_unlock_channel` of `shm_notifier.c`, over the word `n` that the
processes share. Each read and each write of the word is one step, and any process may take the
next one.

The loop of `shmn_lock_channel` goes on while the word is *not* `LOCK_STATE_VAL`, so that it waits
for a lock that is taken.

* `shmnLockChannel_acquires_iff`: a process that calls it alone gets the lock exactly if the word
  is `LOCK_STATE_VAL`.
* `lock_is_never_acquired`: from a word that is `UNLOCK_STATE_VAL`, no run of any number of
  processes comes to such a word. At most one process holds the lock, since none ever does.
-/

namespace LingmoAuthenticate.ShmComm

open Lib

/-! ## The word and the processes -/

/-- `LOCK_STATE_VAL`. -/
def lockStateVal : Int := 1

/-- `UNLOCK_STATE_VAL`. -/
def unlockStateVal : Int := 0

/-- `SHMN_ERR`, as far as the functions here return it. -/
inductive ShmnErr where
  | shmnNoErr
  | shmnErrEmptyObject
  | shmnErrDataSize
  deriving DecidableEq, Repr

/-- The object that a call gets: a null pointer, or one whose `locker` may be null. -/
abbrev ShmnArg := Option Bool

/-- Where a process is in the code. -/
inductive Place where
  /-- In neither function, and not after a `shmn_lock_channel` that it has to undo. -/
  | outside
  /-- In `shmn_lock_channel`, before the loop reads the word again. -/
  | spinning
  /-- In `shmn_lock_channel`, after the loop, before the word is written. -/
  | setting
  /-- `shmn_lock_channel` has returned `SHMN_NO_ERR`. -/
  | holding
  /-- In `shmn_unlock_channel`, before the word is written; the process came from `holding` or from
  `outside`. -/
  | unlocking (held : Bool)
  deriving DecidableEq, Repr

/-- The lock is that of the process: from the return of `shmn_lock_channel` until
`shmn_unlock_channel` writes. -/
def Place.holds : Place → Bool
  | .holding => true
  | .unlocking held => held
  | _ => false

/-- The shared word, and for every process the place where it is in the code. -/
structure LockState (ι : Type) where
  n : Int
  place : ι → Place

/-- The memory as it is when it has been made, with every process outside. -/
def LockState.initial {ι : Type} : LockState ι := ⟨unlockStateVal, fun _ => .outside⟩

/-- A process calls one of the two functions, on a channel that may be missing, or makes the next
read or write of the one that it is in. -/
inductive LockAct (ι : Type) where
  | shmnLockChannel (i : ι) (s : ShmnArg)
  | shmnUnlockChannel (i : ι) (s : ShmnArg)
  | next (i : ι)
  deriving DecidableEq, Repr

namespace LockState

variable {ι : Type} [DecidableEq ι] {s s' t : LockState ι} {i j : ι}

/-- The process is at another place. -/
def setPlace (s : LockState ι) (i : ι) (p : Place) : LockState ι :=
  { s with place := fun j => if j = i then p else s.place j }

@[simp] theorem setPlace_n (p : Place) : (s.setPlace i p).n = s.n := rfl

@[simp] theorem setPlace_self (p : Place) : (s.setPlace i p).place i = p := if_pos rfl

theorem setPlace_of_ne (p : Place) (h : j ≠ i) : (s.setPlace i p).place j = s.place j := if_neg h

/-- The later place counts. -/
theorem setPlace_setPlace (p q : Place) : (s.setPlace i p).setPlace i q = s.setPlace i q := by
  have hplace : ((s.setPlace i p).setPlace i q).place = (s.setPlace i q).place := by
    funext j
    by_cases hj : j = i
    · rw [hj, setPlace_self, setPlace_self]
    · rw [setPlace_of_ne q hj, setPlace_of_ne p hj, setPlace_of_ne q hj]
  exact congrArg (LockState.mk s.n) hplace

/-- The next read or write of a process, and what its function returns if that ends it. -/
def next (s : LockState ι) (i : ι) : Option (LockState ι × Option ShmnErr) :=
  match s.place i with
  | .spinning =>
      if s.n ≠ lockStateVal then some (s, none) else some (s.setPlace i .setting, none)
  | .setting =>
      some ({ s with n := lockStateVal }.setPlace i .holding, some .shmnNoErr)
  | .unlocking _ =>
      some ({ s with n := unlockStateVal }.setPlace i .outside, some .shmnNoErr)
  | _ => none

/-- `shmn_lock_channel` up to its loop. -/
def shmnLockChannel (s : LockState ι) (i : ι) :
    ShmnArg → Option (LockState ι × Option ShmnErr)
  | none => some (s, some .shmnErrEmptyObject)
  | some false => some (s, some .shmnErrEmptyObject)
  | some true => some (s.setPlace i .spinning, none)

/-- `shmn_unlock_channel` up to its write. -/
def shmnUnlockChannel (s : LockState ι) (i : ι) :
    ShmnArg → Option (LockState ι × Option ShmnErr)
  | none => some (s, some .shmnErrEmptyObject)
  | some false => some (s, some .shmnErrEmptyObject)
  | some true => some (s.setPlace i (.unlocking (s.place i).holds), none)

/-- One step. A process locks when it is outside, and unlocks when it is outside or holds the
lock. -/
def step (s : LockState ι) : LockAct ι → Option (LockState ι × Option ShmnErr)
  | .shmnLockChannel i o => if s.place i = .outside then s.shmnLockChannel i o else none
  | .shmnUnlockChannel i o =>
      if s.place i = .outside ∨ s.place i = .holding then s.shmnUnlockChannel i o else none
  | .next i => s.next i

/-! ## What a step does to a word that is not locked -/

/-- The word is not `LOCK_STATE_VAL`, and no process has come past the loop. -/
structure Idle (s : LockState ι) : Prop where
  n_eq : s.n = unlockStateVal
  not_setting : ∀ i, s.place i ≠ .setting
  not_holds : ∀ i, (s.place i).holds = false

omit [DecidableEq ι] in
theorem idle_initial : (initial : LockState ι).Idle :=
  ⟨rfl, by simp [initial], fun _ => rfl⟩

/-- A process moves, but not past the loop. -/
theorem Idle.setPlace (h : s.Idle) {p : Place} (hp : p ≠ .setting) (hp' : p.holds = false) :
    (s.setPlace i p).Idle := by
  constructor
  · exact h.n_eq
  · intro j
    by_cases hj : j = i
    · rwa [hj, setPlace_self]
    · rw [setPlace_of_ne p hj]
      exact h.not_setting j
  · intro j
    by_cases hj : j = i
    · rwa [hj, setPlace_self]
    · rw [setPlace_of_ne p hj]
      exact h.not_holds j

/-- The next read finds no lock, and the next write unlocks. -/
theorem Idle.next {r : Option ShmnErr} (h : s.Idle) (hn : s.next i = some (s', r)) : s'.Idle := by
  unfold LockState.next at hn
  rcases hp : s.place i with _ | _ | _ | _ | held <;> rw [hp] at hn
  · cases hn
  · have hne : s.n ≠ lockStateVal := by
      rw [h.n_eq]
      decide
    rw [if_pos hne] at hn
    cases hn
    exact h
  · exact absurd hp (h.not_setting i)
  · cases hn
  · cases hn
    have hunlocked : Idle { s with n := unlockStateVal } :=
      ⟨rfl, h.not_setting, h.not_holds⟩
    apply hunlocked.setPlace
    · decide
    · rfl

/-- **One step.** -/
theorem Idle.step {a : LockAct ι} {r : Option ShmnErr} (h : s.Idle)
    (hs : s.step a = some (s', r)) : s'.Idle := by
  cases a with
  | shmnLockChannel i o =>
      obtain ⟨-, hs⟩ := Option.ite_none_right_eq_some.mp hs
      rcases o with _ | _ | _
      · cases hs
        exact h
      · cases hs
        exact h
      · cases hs
        apply h.setPlace
        · decide
        · rfl
  | shmnUnlockChannel i o =>
      obtain ⟨-, hs⟩ := Option.ite_none_right_eq_some.mp hs
      rcases o with _ | _ | _
      · cases hs
        exact h
      · cases hs
        exact h
      · cases hs
        apply h.setPlace
        · simp
        · exact h.not_holds i
  | next i => exact h.next hs

/-- **A run**, by any number of processes. -/
theorem Idle.run {as : List (LockAct ι)} {rs : List (Option ShmnErr)} (h : s.Idle)
    (hr : run LockState.step s as = some (t, rs)) : t.Idle := by
  apply run_invariant_of_step (I := Idle) ?_ h hr
  intro u a u' b hu hs
  exact hu.step hs

/-! ## One process alone -/

/-- The process calls `shmn_lock_channel`, and goes on alone until the function has returned. -/
def Acquires (s : LockState ι) (i : ι) : Prop :=
  ∃ k t rs, run step s (.shmnLockChannel i (some true) :: List.replicate k (.next i)) =
    some (t, rs) ∧ t.place i = .holding

/-- While the word is not `LOCK_STATE_VAL`, the process reads it again. -/
theorem spins {k : ℕ} {rs : List (Option ShmnErr)} (hn : s.n ≠ lockStateVal)
    (hp : s.place i = .spinning)
    (hr : run step s (List.replicate k (.next i)) = some (t, rs)) : t.place i = .spinning := by
  induction k generalizing rs with
  | zero =>
      cases hr
      exact hp
  | succ k ih =>
      have hnext : s.next i = some (s, none) := by
        unfold next
        rw [hp]
        exact if_pos hn
      rw [List.replicate_succ] at hr
      obtain ⟨s', r, rs', hs, hr', -⟩ := run_cons_eq_some.mp hr
      change s.next i = _ at hs
      rw [hnext] at hs
      cases hs
      exact ih hr'

/-- **A process alone gets the lock** exactly if the word says that it is taken. -/
theorem shmnLockChannel_acquires_iff (hi : s.place i = .outside) :
    s.Acquires i ↔ s.n = lockStateVal := by
  have hcall : s.step (.shmnLockChannel i (some true)) = some (s.setPlace i .spinning, none) :=
    if_pos hi
  constructor
  · rintro ⟨k, t, rs, hr, ht⟩
    by_contra hn
    obtain ⟨s', r, rs', hs, hr', -⟩ := run_cons_eq_some.mp hr
    rw [hcall] at hs
    cases hs
    have hspin : t.place i = .spinning := spins (s := s.setPlace i .spinning) hn (by simp) hr'
    rw [ht] at hspin
    cases hspin
  · intro hn
    refine ⟨2, { s with n := lockStateVal }.setPlace i .holding,
      [none, none, some .shmnNoErr], ?_, setPlace_self _⟩
    have hread : (s.setPlace i .spinning).step (.next i) = some (s.setPlace i .setting, none) := by
      show (s.setPlace i .spinning).next i = _
      unfold next
      rw [setPlace_self, setPlace_setPlace]
      exact if_neg (not_not.mpr hn)
    have hwrite : (s.setPlace i .setting).step (.next i) =
        some ({ s with n := lockStateVal }.setPlace i .holding, some .shmnNoErr) := by
      show (s.setPlace i .setting).next i = _
      unfold next
      rw [setPlace_self]
      exact congrArg (fun u => some (u, some ShmnErr.shmnNoErr))
        (setPlace_setPlace (s := { s with n := lockStateVal }) .setting .holding)
    apply run_cons_eq_some.mpr
    refine ⟨_, _, _, hcall, ?_, rfl⟩
    apply run_cons_eq_some.mpr
    exact ⟨_, _, _, hread, run_of_step hwrite, rfl⟩

/-! ## Any number of processes -/

/-- At most one process holds the lock. -/
def Exclusive (s : LockState ι) : Prop :=
  ∀ i j, (s.place i).holds = true → (s.place j).holds = true → i = j

omit [DecidableEq ι] in
theorem Idle.exclusive (h : s.Idle) : s.Exclusive := by
  intro i j hi
  rw [h.not_holds i] at hi
  cases hi

/-- **The lock is never acquired.** In every run from an unlocked word, by any number of processes
and in any order of their reads and writes, at most one process holds the lock, since none does; and
in no state that it comes to, though the word is unlocked, a process that calls `shmn_lock_channel`
alone gets it. -/
theorem lock_is_never_acquired {as : List (LockAct ι)} {rs : List (Option ShmnErr)}
    (hr : run step initial as = some (s, rs)) :
    s.Exclusive ∧ s.n = unlockStateVal ∧ (∀ i, (s.place i).holds = false) ∧
      ∀ i, s.place i = .outside → ¬ s.Acquires i := by
  have hidle : s.Idle := idle_initial.run hr
  refine ⟨hidle.exclusive, hidle.n_eq, hidle.not_holds, ?_⟩
  intro i hi hacq
  have hn : s.n = lockStateVal := (shmnLockChannel_acquires_iff hi).mp hacq
  rw [hidle.n_eq] at hn
  exact absurd hn (by decide)

/-- One of two processes has called `shmn_lock_channel` and read the word; the other one then does
not get the lock either. -/
theorem second_caller_spins :
    run step (initial : LockState Bool) [.shmnLockChannel true (some true), .next true] =
      some (initial.setPlace true .spinning, [none, none]) ∧
    ¬ (initial.setPlace true .spinning : LockState Bool).Acquires false :=
  ⟨rfl, (@lock_is_never_acquired _ _ _ [.shmnLockChannel true (some true), .next true]
    [none, none] rfl).2.2.2 false rfl⟩

/-- **The first caller waits for ever**: the word is unlocked, one process calls, and the call never
returns. -/
theorem first_caller_spins :
    (initial : LockState ℕ).n = unlockStateVal ∧ (∀ i, (initial : LockState ℕ).place i = .outside)
      ∧ ¬ (initial : LockState ℕ).Acquires 0 := by
  refine ⟨rfl, fun _ => rfl, ?_⟩
  intro hacq
  exact absurd ((shmnLockChannel_acquires_iff rfl).mp hacq) (by decide)

end LockState

end LingmoAuthenticate.ShmComm
