import Mathlib.Data.List.Basic
import Mathlib.Tactic.Lemma

/-!
# Go channels

A channel with a buffer, as one goroutine at a time sees it. An operation is done, has to wait, or
panics; which of the goroutines that wait goes on is left to the machine that uses the channel.

* `Chan.send`, `Chan.recv` and `Chan.close`, with what each of them says of the channel that it
  finds (`send_eq_done`, `send_eq_blocks`, `send_eq_panics`, `close_eq_done`).
* The buffer never outgrows the capacity: the bound is a field.
-/

namespace LingmoAuthenticate.Lib

/-- How an operation on a channel turns out: it is done and leaves a state, it waits for another
party, or it panics. -/
inductive Attempt (σ : Type*) where
  | done (s : σ)
  | blocks
  | panics
  deriving DecidableEq, Repr

/-- The state after an operation that is done; one that waits has none yet, and a panic has none. -/
def Attempt.toOption {σ : Type*} : Attempt σ → Option σ
  | .done s => some s
  | .blocks | .panics => none

theorem Attempt.done_of_toOption {σ : Type*} {o : Attempt σ} {x : σ} (h : o.toOption = some x) :
    o = .done x := by
  cases o with
  | done y =>
    cases h
    rfl
  | blocks | panics => cases h

/-- A channel of capacity `cap`: what has been sent and not received yet, the oldest first, never
more than the capacity, and whether it is closed. -/
structure Chan (α : Type*) (cap : ℕ) where
  buf : List α
  bound : buf.length ≤ cap
  closed : Bool
  deriving DecidableEq, Repr

namespace Chan

variable {α : Type*} {cap : ℕ}

/-- A new channel. -/
def make (α : Type*) (cap : ℕ) : Chan α cap := ⟨[], Nat.zero_le _, false⟩

/-- There is no room in the buffer. -/
def Full (c : Chan α cap) : Prop := c.buf.length = cap

instance (c : Chan α cap) : Decidable c.Full := inferInstanceAs (Decidable (_ = _))

/-- Send into the buffer; a send on a closed channel panics. -/
def send (c : Chan α cap) (x : α) : Attempt (Chan α cap) :=
  if c.closed then .panics
  else if h : c.buf.length < cap then
    .done { c with
      buf := c.buf ++ [x]
      bound := by rw [List.length_append]; exact h }
  else .blocks

/-- Receive from the buffer; a closed channel that is empty yields no value. -/
def recv (c : Chan α cap) : Attempt (Option α × Chan α cap) :=
  match h : c.buf with
  | x :: rest =>
      .done (some x, { c with
        buf := rest
        bound := by
          have hbound := c.bound
          rw [h] at hbound
          exact Nat.le_of_succ_le hbound })
  | [] => if c.closed then .done (none, c) else .blocks

/-- Close the channel, which panics when it is closed already. -/
def close (c : Chan α cap) : Attempt (Chan α cap) :=
  if c.closed then .panics else .done { c with closed := true }

variable {c c' : Chan α cap} {x : α}

/-- What is sent is the last in the buffer. -/
theorem send_eq_done (h : c.send x = .done c') :
    c.closed = false ∧ c'.buf = c.buf ++ [x] ∧ c'.closed = c.closed := by
  unfold send at h
  split_ifs at h with hclosed hroom
  cases h
  exact ⟨by simpa using hclosed, rfl, rfl⟩

/-- A send waits while the buffer is full. -/
theorem send_eq_blocks : c.send x = .blocks ↔ c.closed = false ∧ c.Full := by
  have hbound := c.bound
  unfold send Full
  split_ifs with hclosed hroom
  · simp [hclosed]
  · refine iff_of_false (fun h => (nomatch h)) ?_
    intro h
    omega
  · refine iff_of_true rfl ⟨by simpa using hclosed, ?_⟩
    omega

/-- An open channel that is not full takes another value. -/
theorem send_eq_done_of_room (hopen : c.closed = false) (hroom : ¬ c.Full) :
    ∃ c', c.send x = .done c' := by
  rcases hsend : c.send x with c' | _ | _
  · exact ⟨c', rfl⟩
  · exact absurd (send_eq_blocks.mp hsend).2 hroom
  · have hclosed := hsend
    unfold send at hclosed
    rw [if_neg (by simp [hopen])] at hclosed
    split_ifs at hclosed

/-- A full channel takes nothing, whoever sends. -/
theorem Full.send_ne_done (h : c.Full) : c.send x ≠ .done c' := by
  intro hsend
  have hbound := c'.bound
  rw [(send_eq_done hsend).2.1, List.length_append, List.length_singleton, h] at hbound
  exact absurd hbound (by simp)

/-- A send panics on a closed channel. -/
theorem send_eq_panics : c.send x = .panics ↔ c.closed = true := by
  unfold send
  split_ifs with hclosed hroom <;> simp [hclosed]

/-- A value that is in the buffer can be received, which makes room. -/
theorem recv_of_full (h : c.Full) (hcap : 0 < cap) :
    ∃ o c', c.recv = .done (o, c') ∧ ¬ c'.Full ∧ c'.closed = c.closed := by
  rcases hbuf : c.buf with _ | ⟨y, rest⟩
  · unfold Full at h
    rw [hbuf, List.length_nil] at h
    omega
  · unfold recv
    split
    · next x' rest' hsome =>
        refine ⟨_, _, rfl, ?_, rfl⟩
        intro hfull
        unfold Full at h hfull
        rw [hsome, List.length_cons] at h
        dsimp only at hfull
        omega
    · next hnone =>
        rw [hbuf] at hnone
        cases hnone

/-- Who has received leaves room. -/
theorem not_full_of_recv {o : Option α} (h : c.recv = .done (o, c')) (hcap : 0 < cap) :
    ¬ c'.Full := by
  have hbound := c.bound
  unfold recv at h
  intro hfull
  unfold Full at hfull
  split at h
  · next x rest hbuf =>
      cases h
      rw [hbuf, List.length_cons] at hbound
      dsimp only at hfull
      omega
  · next hbuf =>
      split_ifs at h
      cases h
      rw [hbuf, List.length_nil] at hfull
      omega

/-- Receiving adds nothing. -/
theorem length_recv_le {o : Option α} (h : c.recv = .done (o, c')) :
    c'.buf.length ≤ c.buf.length := by
  unfold recv at h
  split at h
  · next x rest hbuf =>
      cases h
      have hlength := congrArg List.length hbuf
      rw [List.length_cons] at hlength
      dsimp only
      omega
  · next hbuf =>
      split_ifs at h
      cases h
      exact Nat.le_refl _

/-- Receiving closes no channel. -/
theorem recv_closed {o : Option α} (h : c.recv = .done (o, c')) : c'.closed = c.closed := by
  unfold recv at h
  split at h
  · cases h
    rfl
  · split_ifs at h
    cases h
    rfl

/-- A channel is closed once. -/
theorem close_eq_done (h : c.close = .done c') :
    c.closed = false ∧ c'.buf = c.buf ∧ c'.closed = true := by
  unfold close at h
  split_ifs at h with hclosed
  cases h
  exact ⟨by simpa using hclosed, rfl, rfl⟩

end Chan

end LingmoAuthenticate.Lib
