import Mathlib.Tactic.Lemma
import Mathlib.Tactic.SplitIfs

/-!
# Mutexes that a computation holds

A computation that locks and unlocks, as the goroutine that runs it sees it: what it holds is a list
of mutexes, each for reading or for writing. Where it asks for a mutex that it holds itself, and one
of the two is for writing, it waits for ever; it then has no result.

* `Locking`: computations over a state, with `withLock` for a mutex that is held until the function
  returns.
* `Returns`: there is a result. The rules `returns_bind`, `returns_withLock` and
  `not_returns_withLock` say when.
* `Safe`: there is one from every state.
-/

namespace LingmoAuthenticate.Lib

/-- How a mutex is held, or asked for: together with other readers, or alone. -/
inductive Mode where
  | read
  | write
  deriving DecidableEq, Repr

/-- The mutexes that a goroutine holds. -/
abbrev Held (μ : Type) := List (μ × Mode)

/-- The mutex is held, and it is held or asked for to write. -/
def Held.Conflicts {μ : Type} (held : Held μ) (m : μ) (mode : Mode) : Prop :=
  ∃ e ∈ held, e.1 = m ∧ ¬ (e.2 = .read ∧ mode = .read)

/-- A computation over a state: a result, or the mutex that it waits for in vain. -/
def Locking (μ σ α : Type) : Type := Held μ → σ → Except μ (α × σ)

namespace Locking

variable {μ σ α β : Type} [DecidableEq μ]

instance : Monad (Locking μ σ) where
  pure a := fun _ s => .ok (a, s)
  bind p f := fun held s =>
    match p held s with
    | .error m => .error m
    | .ok (a, t) => f a held t

instance (held : Held μ) (m : μ) (mode : Mode) : Decidable (held.Conflicts m mode) :=
  inferInstanceAs (Decidable (∃ e ∈ held, e.1 = m ∧ ¬ (e.2 = .read ∧ mode = .read)))

/-- The state. -/
def get : Locking μ σ σ := fun _ s => .ok (s, s)

/-- The state is changed. -/
def modify (f : σ → σ) : Locking μ σ Unit := fun _ s => .ok ((), f s)

/-- A mutex is locked, and unlocked when the rest has returned. -/
def withLock (m : μ) (mode : Mode) (p : Locking μ σ α) : Locking μ σ α := fun held s =>
  if held.Conflicts m mode then .error m else p ((m, mode) :: held) s

/-- The computation has a result. -/
def Returns (held : Held μ) (s : σ) (p : Locking μ σ α) : Prop := ∃ r, p held s = .ok r

/-- The computation has a result, whatever the state. -/
def Safe (held : Held μ) (p : Locking μ σ α) : Prop := ∀ s, Returns held s p

variable {held : Held μ} {s : σ} {p : Locking μ σ α} {f : α → Locking μ σ β}

omit [DecidableEq μ] in
theorem safe_pure (a : α) : Safe held (pure a : Locking μ σ α) := fun s => ⟨(a, s), rfl⟩

omit [DecidableEq μ] in
theorem safe_get : Safe held (get : Locking μ σ σ) := fun s => ⟨(s, s), rfl⟩

omit [DecidableEq μ] in
theorem safe_modify (g : σ → σ) : Safe held (modify g : Locking μ σ Unit) :=
  fun s => ⟨((), g s), rfl⟩

omit [DecidableEq μ] in
/-- Where the rest always returns, it is a matter of the beginning. -/
theorem returns_bind (hf : ∀ a, Safe held (f a)) :
    Returns held s (p >>= f) ↔ Returns held s p := by
  show (∃ r, (match p held s with
    | .error m => .error m
    | .ok (a, t) => f a held t) = Except.ok r) ↔ ∃ r, p held s = .ok r
  rcases p held s with m | ⟨a, t⟩
  · exact iff_of_false (fun ⟨_, h⟩ => by cases h) (fun ⟨_, h⟩ => by cases h)
  · exact iff_of_true (hf a t) ⟨(a, t), rfl⟩

omit [DecidableEq μ] in
/-- The beginning has a result, and the rest goes on from it. -/
theorem bind_of_eq {a : α} {t : σ} (h : p held s = .ok (a, t)) : (p >>= f) held s = f a held t := by
  show (match p held s with
    | .error m => Except.error m
    | .ok (a, t) => f a held t) = _
  rw [h]

omit [DecidableEq μ] in
/-- The state is read, and the rest goes on with it. -/
theorem get_bind {g : σ → Locking μ σ β} : (get >>= g) held s = g s held s := rfl

omit [DecidableEq μ] in
/-- What is read first is the state. -/
theorem returns_get_bind {g : σ → Locking μ σ β} :
    Returns held s (get >>= g) ↔ Returns held s (g s) := Iff.rfl

omit [DecidableEq μ] in
/-- One safe computation after another. -/
theorem safe_bind (hp : Safe held p) (hf : ∀ a, Safe held (f a)) : Safe held (p >>= f) :=
  fun s => (returns_bind hf).mpr (hp s)

omit [DecidableEq μ] in
theorem safe_ite {c : Prop} [Decidable c] {q : Locking μ σ α} (hp : Safe held p)
    (hq : Safe held q) : Safe held (if c then p else q) := by
  split_ifs
  · exact hp
  · exact hq

/-- A mutex that is not held in a conflicting mode is locked. -/
theorem returns_withLock {m : μ} {mode : Mode} (h : ¬ held.Conflicts m mode) :
    Returns held s (withLock m mode p) ↔ Returns ((m, mode) :: held) s p := by
  unfold Returns withLock
  rw [if_neg h]

theorem withLock_of_not_conflicts {m : μ} {mode : Mode} (h : ¬ held.Conflicts m mode) :
    withLock m mode p held s = p ((m, mode) :: held) s := if_neg h

theorem safe_withLock {m : μ} {mode : Mode} (h : ¬ held.Conflicts m mode)
    (hp : Safe ((m, mode) :: held) p) : Safe held (withLock m mode p) :=
  fun s => (returns_withLock h).mpr (hp s)

/-- **A mutex that is held in a conflicting mode** is waited for in vain. -/
theorem not_returns_withLock {m : μ} {mode : Mode} (h : held.Conflicts m mode) :
    ¬ Returns held s (withLock m mode p) := by
  rintro ⟨r, hr⟩
  unfold withLock at hr
  rw [if_pos h] at hr
  cases hr

end Locking

end LingmoAuthenticate.Lib
