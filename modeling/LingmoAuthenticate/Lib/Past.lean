import Mathlib.Data.List.Basic
import Mathlib.Tactic.Lemma

/-!
# Events and those before them

A property of an event may speak of the events that came before it.

* `EachPast P bs`: `P` holds of each event of `bs` and the list of those before it.
* `eachPast_append_singleton`: it is extended event by event.
-/

namespace LingmoAuthenticate.Lib

variable {β : Type*} {P Q : List β → β → Prop} {bs : List β} {b : β}

/-- `P` holds of each event and those before it. -/
def EachPast (P : List β → β → Prop) (bs : List β) : Prop :=
  ∀ before b later, bs = before ++ b :: later → P before b

theorem eachPast_nil : EachPast P [] := by
  intro before b later h
  simp at h

/-- One more event. -/
theorem eachPast_append_singleton :
    EachPast P (bs ++ [b]) ↔ EachPast P bs ∧ P bs b := by
  constructor
  · intro h
    refine ⟨?_, h bs b [] rfl⟩
    rintro before c later rfl
    exact h before c (later ++ [b]) (by simp)
  · rintro ⟨hbs, hb⟩ before c later heq
    rcases List.eq_nil_or_concat' later with rfl | ⟨later', d, rfl⟩
    · -- the event is the last one
      obtain ⟨rfl, hlast⟩ := List.append_inj' heq rfl
      cases hlast
      exact hb
    · rw [← List.cons_append, ← List.append_assoc] at heq
      exact hbs before c later' (List.append_inj' heq rfl).1

/-- A weaker property. -/
theorem EachPast.imp (h : EachPast P bs) (hPQ : ∀ before b, P before b → Q before b) :
    EachPast Q bs :=
  fun before b later heq => hPQ before b (h before b later heq)

end LingmoAuthenticate.Lib
