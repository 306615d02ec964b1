import Mathlib.Logic.Function.Basic
import Mathlib.Tactic.Lemma
import LingmoAuthenticate.Lib.Chan

/-!
# Channels without a buffer

A send on a channel that has no buffer waits until somebody receives. The channels and the senders
are known by numbers; what is kept of them is who waits where, and which channels are closed.

* `Rendezvous.Sound`: nobody waits on a closed channel, where a wait ends in a panic.
* `Rendezvous.sound_send`, `Rendezvous.sound_taken`: beginning to wait, and being served, keep it.
* `Rendezvous.sound_close_iff`: closing a channel keeps it exactly where nobody waits on it.
-/

namespace LingmoAuthenticate.Lib

/-- Channels without a buffer: which of them are closed (`closed`), and on which of them each sender
waits, if on any (`sending`). A channel that nobody waits on holds nothing. -/
structure Rendezvous where
  closed : ℕ → Bool
  sending : ℕ → Option ℕ

namespace Rendezvous

/-- Open channels on which nobody waits. -/
def make : Rendezvous := ⟨fun _ => false, fun _ => none⟩

/-- The sender `i` begins to wait on the channel `c`, which panics where it is closed. -/
def send (r : Rendezvous) (i c : ℕ) : Attempt Rendezvous :=
  if r.closed c then .panics
  else .done { r with sending := Function.update r.sending i (some c) }

/-- The sender `i` waits on the channel `c`, which is open. -/
def Offers (r : Rendezvous) (i c : ℕ) : Prop := r.sending i = some c ∧ r.closed c = false

instance (r : Rendezvous) (i c : ℕ) : Decidable (r.Offers i c) :=
  inferInstanceAs (Decidable (_ ∧ _))

/-- What the sender `i` was about to send is taken. -/
def taken (r : Rendezvous) (i : ℕ) : Rendezvous :=
  { r with sending := Function.update r.sending i none }

/-- Close a channel, which panics where it is closed already. -/
def close (r : Rendezvous) (c : ℕ) : Attempt Rendezvous :=
  if r.closed c then .panics else .done { r with closed := Function.update r.closed c true }

/-- Somebody waits on the channel. -/
def Awaited (r : Rendezvous) (c : ℕ) : Prop := ∃ i, r.sending i = some c

/-- Nobody waits on a closed channel. -/
def Sound (r : Rendezvous) : Prop := ∀ c, r.Awaited c → r.closed c = false

variable {r r' : Rendezvous} {i c : ℕ}

theorem sound_make : make.Sound := fun _ ⟨_, h⟩ => nomatch h

/-- Sending on an open channel is waiting there. -/
theorem send_of_open (h : r.closed c = false) :
    r.send i c = .done { r with sending := Function.update r.sending i (some c) } :=
  if_neg (by simp [h])

/-- Sending on a closed channel panics. -/
theorem send_of_closed (h : r.closed c = true) : r.send i c = .panics := if_pos h

/-- An open channel can be closed. -/
theorem close_of_open (h : r.closed c = false) :
    r.close c = .done { r with closed := Function.update r.closed c true } :=
  if_neg (by simp [h])

/-- Closing a closed channel panics. -/
theorem close_of_closed (h : r.closed c = true) : r.close c = .panics := if_pos h

/-- Sending closes no channel. -/
theorem closed_send (hs : r.send i c = .done r') : r'.closed = r.closed := by
  rcases hc : r.closed c with _ | _
  · rw [send_of_open hc] at hs
    cases hs
    rfl
  · rw [send_of_closed hc] at hs
    cases hs

/-- What is closed after a closing was so before, or is the channel. -/
theorem closed_close (hs : r.close c = .done r') {d : ℕ} (hd : r'.closed d = true) :
    r.closed d = true ∨ d = c := by
  rcases hc : r.closed c with _ | _
  · rw [close_of_open hc] at hs
    cases hs
    by_cases hdc : d = c
    · exact .inr hdc
    · exact .inl ((Function.update_of_ne hdc true r.closed).symm.trans hd)
  · rw [close_of_closed hc] at hs
    cases hs

/-- Whoever waits on a channel after the sender `i` has moved waited there before, or is `i`. -/
theorem awaited_update {o : Option ℕ} {d : ℕ}
    (h : Awaited { r with sending := Function.update r.sending i o } d) :
    o = some d ∨ r.Awaited d := by
  obtain ⟨j, hj⟩ := h
  dsimp only at hj
  by_cases hji : j = i
  · rw [hji, Function.update_self] at hj
    exact .inl hj
  · rw [Function.update_of_ne hji] at hj
    exact .inr ⟨j, hj⟩

/-- A send that waits does so on an open channel. -/
theorem sound_send (h : r.Sound) (hs : r.send i c = .done r') : r'.Sound := by
  rcases hc : r.closed c with _ | _
  · rw [send_of_open hc] at hs
    cases hs
    intro d hd
    rcases awaited_update hd with hcd | hd
    · cases hcd
      exact hc
    · exact h d hd
  · rw [send_of_closed hc] at hs
    cases hs

/-- A sender that is served waits no longer. -/
theorem sound_taken (h : r.Sound) : (r.taken i).Sound := by
  intro d hd
  rcases awaited_update hd with hcd | hd
  · cases hcd
  · exact h d hd

/-- **When a channel may be closed**: while nobody waits on it. -/
theorem sound_close_iff (h : r.Sound) :
    Sound { r with closed := Function.update r.closed c true } ↔ ¬ r.Awaited c := by
  constructor
  · rintro hsound ⟨i, hi⟩
    have hc : Function.update r.closed c true c = false := hsound c ⟨i, hi⟩
    rw [Function.update_self] at hc
    cases hc
  · intro hfree d hd
    have hdc : d ≠ c := fun hdc => hfree (hdc ▸ hd)
    show Function.update r.closed c true d = false
    rw [Function.update_of_ne hdc]
    exact h d hd

end Rendezvous

end LingmoAuthenticate.Lib
