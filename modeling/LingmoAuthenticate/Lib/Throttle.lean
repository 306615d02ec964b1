import Mathlib.Algebra.Order.Ring.Int
import Mathlib.Data.Nat.Basic
import Mathlib.Logic.Relation
import Mathlib.Tactic.Lemma

/-!
# Throttles

A throttle lets attempts start while it is open. Each failure takes one of the tries that are left,
the last one closes it, and it opens again no earlier than `lock` after the last failure. Attempts
that run when it closes may fail all the same.

* `Throttle.Step` is what happens to the tally at an instant.
* `Throttle.Within` is the invariant, with the number of times that the throttle has opened again;
  `Step.within` and `steps_within` keep it.
* `Within.missed_le` is the bound on the failures of a stretch of time: they are those of the
  attempts that ran when it began, and some for each renewal and for each lock that fits into it.
-/

namespace LingmoAuthenticate.Lib

/-- What a throttle is set to: the tries after a renewal and after a lock, the attempts that may run
beside another one, and the duration of the shortest lock. -/
structure Throttle where
  first : ℕ
  refill : ℕ
  beside : ℕ
  lock : ℤ

namespace Throttle

/-- Open with `left` tries left, or closed since the failure that used up the last one. -/
inductive Phase where
  | opened (left : ℕ)
  | closed (since : ℤ)
  deriving DecidableEq, Repr

/-- A throttle in use: its phase, how many attempts run that may still fail, how many have failed,
and how often it was renewed. -/
structure Tally where
  phase : Phase
  running : ℕ
  missed : ℕ
  renewed : ℕ

/-- What can happen at the instant `now`: attempts start or are given up; one fails, with tries left,
with the last one, or too late; the lock is over; the tries are renewed. -/
inductive Step (c : Throttle) (now : ℤ) : Tally → Tally → Prop
  | start {left r r' m q} (h : r' ≤ c.beside + 1) :
      Step c now ⟨.opened left, r, m, q⟩ ⟨.opened left, r', m, q⟩
  | drop {p r r' m q} (h : r' ≤ r) : Step c now ⟨p, r, m, q⟩ ⟨p, r', m, q⟩
  | miss {left r m q} :
      Step c now ⟨.opened (left + 2), r + 1, m, q⟩ ⟨.opened (left + 1), r, m + 1, q⟩
  | last {r m q} : Step c now ⟨.opened 1, r + 1, m, q⟩ ⟨.closed now, r, m + 1, q⟩
  | late {since r m q} :
      Step c now ⟨.closed since, r + 1, m, q⟩ ⟨.closed now, r, m + 1, q⟩
  | reopen {since left r m q} (h : since + c.lock ≤ now) (h0 : 0 < left)
      (hleft : left ≤ c.refill) :
      Step c now ⟨.closed since, r, m, q⟩ ⟨.opened left, r, m, q⟩
  | renew {p left r m q} (h0 : 0 < left) (hleft : left ≤ c.first) :
      Step c now ⟨p, r, m, q⟩ ⟨.opened left, r, m, q + 1⟩

/-- What a tally may come to after `reopened` locks. -/
def budget (c : Throttle) (renewed reopened : ℕ) : ℕ :=
  renewed * (c.first + c.beside) + reopened * (c.refill + c.beside)

/-- What holds of a tally that began at the instant `since₀` with `begun` attempts: while it is open
the tries left and the attempts beside are still in the budget, and while it is closed the attempts
that run. It may have begun in a lock, which is over at no known time. -/
structure Within (c : Throttle) (begun : ℕ) (since₀ now : ℤ) (s : Tally) : Prop where
  clock : since₀ ≤ now
  running : s.running ≤ c.beside + 1
  spent : ∃ reopened : ℕ,
    match s.phase with
    | .opened left => 0 < left ∧ since₀ + reopened * c.lock ≤ now ∧
        s.missed + left + c.beside ≤ begun + c.budget (s.renewed + 1) reopened
    | .closed since => since ≤ now ∧
        (since₀ + reopened * c.lock ≤ since ∧
            s.missed + s.running ≤ begun + c.budget (s.renewed + 1) reopened ∨
          reopened = 0 ∧ s.missed + s.running ≤ begun + c.budget s.renewed 0)

section within

variable {c : Throttle} {begun : ℕ} {since₀ now now' : ℤ} {s s' : Tally}

theorem budget_succ (renewed reopened : ℕ) :
    c.budget (renewed + 1) reopened = c.budget renewed reopened + (c.first + c.beside) := by
  unfold budget
  rw [Nat.succ_mul]
  omega

theorem budget_succ_right (renewed reopened : ℕ) :
    c.budget renewed (reopened + 1) = c.budget renewed reopened + (c.refill + c.beside) := by
  unfold budget
  rw [Nat.succ_mul]
  omega

/-- An open throttle at the beginning. -/
theorem within_opened {left : ℕ} (h0 : 0 < left) (hleft : left ≤ c.first)
    (hbegun : begun ≤ c.beside + 1) : c.Within begun now now ⟨.opened left, begun, 0, 0⟩ := by
  refine ⟨le_rfl, hbegun, 0, h0, ?_, ?_⟩
  · simp
  · simp only [budget, Nat.zero_mul]
    omega

/-- A closed throttle at the beginning. -/
theorem within_closed {since : ℤ} (hsince : since ≤ now) (hbegun : begun ≤ c.beside + 1) :
    c.Within begun now now ⟨.closed since, begun, 0, 0⟩ := by
  refine ⟨le_rfl, hbegun, 0, hsince, .inr ⟨rfl, ?_⟩⟩
  simp [budget]

/-- Time passes. -/
theorem Within.tick (h : c.Within begun since₀ now s) (hle : now ≤ now') :
    c.Within begun since₀ now' s := by
  obtain ⟨hclock, hrunning, reopened, hspent⟩ := h
  refine ⟨hclock.trans hle, hrunning, reopened, ?_⟩
  split at hspent
  · exact ⟨hspent.1, hspent.2.1.trans hle, hspent.2.2⟩
  · exact ⟨hspent.1.trans hle, hspent.2⟩

/-- **One step keeps the invariant.** -/
theorem Step.within (hc : c.refill ≤ c.first) (hs : c.Step now s s')
    (h : c.Within begun since₀ now s) : c.Within begun since₀ now s' := by
  obtain ⟨hclock, hrunning, reopened, hspent⟩ := h
  refine ⟨hclock, ?_, ?_⟩
  · cases hs with
    | start h => exact h
    | drop h => exact h.trans hrunning
    | miss => exact (Nat.le_succ _).trans hrunning
    | last => exact (Nat.le_succ _).trans hrunning
    | late => exact (Nat.le_succ _).trans hrunning
    | reopen => exact hrunning
    | renew => exact hrunning
  cases hs with
  | start => exact ⟨reopened, hspent⟩
  | @drop p r r' m q hr =>
      refine ⟨reopened, ?_⟩
      cases p with
      | opened left => exact hspent
      | closed since =>
          obtain ⟨hsince, hspent⟩ := hspent
          dsimp only at hspent
          refine ⟨hsince, hspent.imp (fun h => ⟨h.1, ?_⟩) fun h => ⟨h.1, ?_⟩⟩
          · dsimp only
            omega
          · dsimp only
            omega
  | miss =>
      refine ⟨reopened, ?_⟩
      dsimp only at hspent hrunning ⊢
      omega
  | last =>
      refine ⟨reopened, ?_⟩
      dsimp only at hspent hrunning ⊢
      refine ⟨le_rfl, .inl ⟨hspent.2.1, ?_⟩⟩
      omega
  | late =>
      refine ⟨reopened, ?_⟩
      dsimp only at hspent ⊢
      obtain ⟨hsince, ⟨htime, hsum⟩ | ⟨h0, hsum⟩⟩ := hspent
      · exact ⟨le_rfl, .inl ⟨htime.trans hsince, by omega⟩⟩
      · exact ⟨le_rfl, .inr ⟨h0, by omega⟩⟩
  | @reopen since left r m q hover h0 hleft =>
      dsimp only at hspent ⊢
      obtain ⟨-, ⟨htime, hsum⟩ | ⟨rfl, hsum⟩⟩ := hspent
      · -- a lock of the time that is counted
        refine ⟨reopened + 1, h0, ?_, ?_⟩
        · push_cast
          rw [Int.add_mul]
          omega
        · rw [budget_succ_right]
          omega
      · -- the lock that it began in
        refine ⟨0, h0, ?_, ?_⟩
        · simpa using hclock
        · rw [budget_succ]
          omega
  | @renew p left r m q h0 hleft =>
      cases p with
      | opened left' =>
          obtain ⟨-, htime, hsum⟩ := hspent
          refine ⟨reopened, h0, htime, ?_⟩
          dsimp only at hsum ⊢
          rw [budget_succ]
          omega
      | closed since =>
          obtain ⟨hsince, ⟨htime, hsum⟩ | ⟨rfl, hsum⟩⟩ := hspent
          · refine ⟨reopened, h0, htime.trans hsince, ?_⟩
            dsimp only at hsum ⊢
            rw [budget_succ]
            omega
          · refine ⟨0, h0, by simpa using hclock, ?_⟩
            dsimp only at hsum ⊢
            rw [budget_succ, budget_succ]
            omega

/-- Steps at one instant keep the invariant. -/
theorem steps_within (hc : c.refill ≤ c.first) (hs : Relation.ReflTransGen (c.Step now) s s')
    (h : c.Within begun since₀ now s) : c.Within begun since₀ now s' := by
  induction hs with
  | refl => exact h
  | tail _ hstep ih => exact hstep.within hc ih

/-- **The bound on the failures** of a stretch of time. -/
theorem Within.missed_le (h : c.Within begun since₀ now s) :
    ∃ reopened : ℕ, reopened * c.lock ≤ now - since₀ ∧
      s.missed ≤ begun + c.budget (s.renewed + 1) reopened := by
  obtain ⟨hclock, -, reopened, hspent⟩ := h
  split at hspent
  · exact ⟨reopened, by omega, by omega⟩
  · obtain ⟨hsince, ⟨htime, hsum⟩ | ⟨rfl, hsum⟩⟩ := hspent
    · exact ⟨reopened, by omega, by omega⟩
    · refine ⟨0, ?_, ?_⟩
      · simpa using hclock
      · rw [budget_succ]
        omega

end within

end Throttle

end LingmoAuthenticate.Lib
