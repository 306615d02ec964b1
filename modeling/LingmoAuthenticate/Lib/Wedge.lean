import Mathlib.Tactic.Lemma

/-!
# Senders that hold what the receivers need

A party sends to the channel of another one, and waits while that channel is full. Each channel has
one receiver, the party that it belongs to. A receiver that is lost receives no more: it has ended,
or it waits for what the sender does not let go.

* `Sending.Wedged`: a party waits at the full channel of one that is lost.
* `Sending.Moves`: one party makes a step; the channels may change.
* `Moves.wedged_iff`: what such a step must not do.
-/

namespace LingmoAuthenticate.Lib

/-- Parties that send to each other over bounded channels: to whose channel each is about to send,
if to any, who is lost and reads no more, and which channels are full. -/
structure Sending (ι : Type) where
  target : ι → Option ι
  Lost : ι → Prop
  Full : ι → Prop

namespace Sending

variable {ι : Type} {s t : Sending ι} {i : ι}

/-- Somebody waits for a receiver that is lost. -/
def Wedged (s : Sending ι) : Prop := ∃ k a, s.target k = some a ∧ s.Full a ∧ s.Lost a

/-- The party `i` makes a step; one that is about to send is not lost. -/
structure Moves (s t : Sending ι) (i : ι) : Prop where
  target_eq : ∀ k, k ≠ i → t.target k = s.target k
  lost_iff : ∀ k, k ≠ i → (t.Lost k ↔ s.Lost k)
  not_lost : ∀ a, t.target i = some a → ¬ t.Lost i

/-- **A step wedges the parties** in three ways only: the party comes to the full channel of one
that is lost, it is lost while another one is at its full channel, or it fills a channel at which
another one is, too. -/
theorem Moves.wedged_iff (h : s.Moves t i) (hs : ¬ s.Wedged) :
    t.Wedged ↔
      (∃ a, a ≠ i ∧ t.target i = some a ∧ t.Full a ∧ s.Lost a) ∨
      (t.Lost i ∧ t.Full i ∧ ∃ k, k ≠ i ∧ s.target k = some i) ∨
      ∃ a k, a ≠ i ∧ k ≠ i ∧ s.target k = some a ∧ t.Full a ∧ ¬ s.Full a ∧ s.Lost a := by
  constructor
  · rintro ⟨k, a, htarget, hfull, hlost⟩
    by_cases hk : k = i
    · subst hk
      have ha : a ≠ k := fun ha => h.not_lost a htarget (ha ▸ hlost)
      exact Or.inl ⟨a, ha, htarget, hfull, (h.lost_iff a ha).mp hlost⟩
    have htarget' : s.target k = some a := (h.target_eq k hk).symm.trans htarget
    by_cases ha : a = i
    · subst ha
      exact Or.inr (Or.inl ⟨hlost, hfull, k, hk, htarget'⟩)
    · have hlost' : s.Lost a := (h.lost_iff a ha).mp hlost
      have hfull' : ¬ s.Full a := fun hfull' => hs ⟨k, a, htarget', hfull', hlost'⟩
      exact Or.inr (Or.inr ⟨a, k, ha, hk, htarget', hfull, hfull', hlost'⟩)
  · rintro (⟨a, ha, htarget, hfull, hlost⟩ | ⟨hlost, hfull, k, hk, htarget⟩ |
      ⟨a, k, ha, hk, htarget, hfull, -, hlost⟩)
    · exact ⟨i, a, htarget, hfull, (h.lost_iff a ha).mpr hlost⟩
    · exact ⟨k, i, (h.target_eq k hk).trans htarget, hfull, hlost⟩
    · exact ⟨k, a, (h.target_eq k hk).trans htarget, hfull, (h.lost_iff a ha).mpr hlost⟩

end Sending

end LingmoAuthenticate.Lib
