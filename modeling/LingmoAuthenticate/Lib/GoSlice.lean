import Mathlib.Data.List.Basic
import Mathlib.Data.List.Range
import Mathlib.Tactic.Lemma

/-!
# Go slices

A slice is an array from the slice's first element up to its capacity, and a length. Slicing and
`append` share the array where it has room, so what is written through one slice is seen through the
others. What panics is `none`.

* `to?`, `from?`, `append`, `removeAt`: `s[:i]`, `s[i:]`, `append(s, xs...)`, and
  `append(s[:i], s[i+1:]...)`.
* `rangeRemove`: a loop over a slice that removes elements from it. The loop reads as many elements
  as the slice had at first, and after a removal what it comes to next has moved.
* `rangeRemove_iff`: it removes exactly the elements that qualify if there is one at most, or if no
  two of them are neighbours and the last element is none.
-/

namespace LingmoAuthenticate.Lib

universe u

/-- A slice: the array below it, and how many of its elements the slice shows. Appending within the
array overwrites what comes after them. -/
structure GoSlice (α : Type u) where
  array : List α
  len : ℕ
  len_le : len ≤ array.length

namespace GoSlice

variable {α : Type u}

/-- The elements of a slice. -/
def elems (s : GoSlice α) : List α := s.array.take s.len

/-- A slice of these elements, whose array goes on. -/
def ofList (xs spare : List α) : GoSlice α where
  array := xs ++ spare
  len := xs.length
  len_le := by simp

/-- `s[:i]`: up to the capacity. -/
def to? (s : GoSlice α) (i : ℕ) : Option (GoSlice α) :=
  if h : i ≤ s.array.length then some ⟨s.array, i, h⟩ else none

/-- The elements of `s[i:]`: from a position up to the length. -/
def from? (s : GoSlice α) (i : ℕ) : Option (List α) :=
  if i ≤ s.len then some (s.elems.drop i) else none

/-- `append(s, xs...)`: behind the elements of `s`, in the same array if it has room. -/
def append (s : GoSlice α) (xs : List α) : GoSlice α where
  array := s.elems ++ xs ++ s.array.drop (s.len + xs.length)
  len := s.len + xs.length
  len_le := by simp [elems, s.len_le]

/-- `append(s[:i], s[i+1:]...)`. -/
def removeAt (s : GoSlice α) (i : ℕ) : Option (GoSlice α) := do
  let before ← s.to? i
  return before.append (← s.from? (i + 1))

@[simp] theorem elems_ofList (xs spare : List α) : (ofList xs spare).elems = xs := by
  simp [elems, ofList]

@[simp] theorem elems_append (s : GoSlice α) (xs : List α) :
    (s.append xs).elems = s.elems ++ xs := by
  have hlen : s.elems.length = s.len := by simp [elems, s.len_le]
  rw [elems, append]
  dsimp only
  rw [List.take_left' (by rw [List.length_append, hlen])]

/-- **What a removal does to the array**: the elements behind the one that is removed move up, and
the last one stays where it was, too. -/
theorem removeAt_eq {s : GoSlice α} {before after rest : List α} {x : α}
    (harray : s.array = before ++ x :: after ++ rest)
    (hlen : s.len = before.length + (after.length + 1)) :
    ∃ t, s.removeAt before.length = some t ∧ t.len = before.length + after.length ∧
      t.array = before ++ after ++ ((x :: after).drop after.length ++ rest) := by
  have helems : s.elems = before ++ x :: after := by
    rw [elems, harray, hlen, List.take_left' (by simp)]
  have hto : s.to? before.length = some ⟨s.array, before.length, by simp [harray]⟩ := by
    rw [to?, dif_pos (by simp [harray])]
  have hfrom : s.from? (before.length + 1) = some after := by
    rw [from?, if_pos (by omega), helems, ← List.drop_drop, List.drop_left, List.drop_succ_cons,
      List.drop_zero]
  refine ⟨(⟨s.array, before.length, by simp [harray]⟩ : GoSlice α).append after, ?_, rfl, ?_⟩
  · rw [removeAt, hto, hfrom]
    rfl
  · show s.array.take before.length ++ after ++ s.array.drop (before.length + after.length) = _
    rw [harray, List.append_assoc before, List.take_left, ← List.drop_drop, List.drop_left,
      List.drop_append_of_le_length (by simp)]

/-- A removal behind the last element panics. -/
theorem removeAt_of_len_le {s : GoSlice α} {i : ℕ} (h : s.len ≤ i) : s.removeAt i = none := by
  rw [removeAt, from?, if_neg (by omega)]
  cases s.to? i with
  | none => rfl
  | some t => rfl

/-! ## A loop that removes from what it goes over -/

section rangeRemove

variable (p : α → Bool)

/-- A round: the element is read from the array as it is by now. -/
def removeRound (s : GoSlice α) (i : ℕ) : Option (GoSlice α) := do
  let x ← s.array[i]?
  if p x then s.removeAt i else some s

/-- `for i, x := range s { if p(x) { s = append(s[:i], s[i+1:]...) } }`. -/
def rangeRemove (s : GoSlice α) : Option (GoSlice α) :=
  (List.range s.len).foldlM (removeRound p) s

/-- What the loop leaves of the elements that it has not come to yet: `gone` says whether one has
been removed, and `last` whether the last element of the slice qualifies. After a removal the next
element has moved to the place that the loop leaves. -/
def leaves (last : Bool) : Bool → List α → Option (List α)
  | gone, [] => if gone && last then none else some []
  | gone, x :: xs =>
      if p x then
        match xs with
        | [] => if gone then none else some []
        | y :: ys => (leaves last true ys).map (y :: ·)
      else (leaves last gone xs).map (x :: ·)

variable {p}

/-- Rounds that meet nothing to remove. -/
theorem foldlM_removeRound_of_not {s : GoSlice α} {is : List ℕ}
    (h : ∀ i ∈ is, ∃ x, s.array[i]? = some x ∧ p x = false) :
    is.foldlM (removeRound p) s = some s := by
  induction is with
  | nil => rfl
  | cons i is ih =>
      obtain ⟨⟨x, hx, hp⟩, his⟩ := List.forall_mem_cons.mp h
      have hround : removeRound p s i = some s := by
        simp [removeRound, hx, hp]
      rw [List.foldlM_cons, hround]
      exact ih his

/-- **The loop behind the last element**: what stands there is what stood last, and to remove it
panics. -/
theorem foldlM_removeRound_stale {s : GoSlice α} {stale rest : List α} {last : Bool} {i : ℕ}
    (harray : s.array.drop i = stale ++ rest) (hi : s.len ≤ i)
    (hstale : ∀ y ∈ stale, p y = last) :
    (List.range' i stale.length).foldlM (removeRound p) s =
      if !stale.isEmpty && last then none else some s := by
  have hread : ∀ j (hj : j < stale.length), s.array[i + j]? = some stale[j] := by
    intro j hj
    rw [← List.getElem?_drop, harray, List.getElem?_append_left hj, List.getElem?_eq_getElem hj]
  cases last with
  | false =>
      rw [Bool.and_false, if_neg Bool.false_ne_true]
      apply foldlM_removeRound_of_not
      intro k hk
      rw [List.mem_range'_1] at hk
      have hj : k - i < stale.length := by omega
      refine ⟨stale[k - i], ?_, hstale _ (List.getElem_mem hj)⟩
      rw [← hread _ hj, Nat.add_sub_cancel' hk.1]
  | true =>
      cases stale with
      | nil => rfl
      | cons y ys =>
          have hy := hread 0 (by simp)
          have hround : removeRound p s i = none := by
            simp only [removeRound, Option.bind_eq_bind]
            rw [show s.array[i]? = some y from hy, Option.bind_some,
              if_pos (hstale y List.mem_cons_self), removeAt_of_len_le hi]
          rw [List.length_cons, List.range'_succ, List.foldlM_cons, hround]
          rfl

theorem leaves_not {last gone : Bool} {x : α} {xs : List α} (hp : p x = false) :
    leaves p last gone (x :: xs) = (leaves p last gone xs).map (x :: ·) := by
  cases xs <;> simp [leaves, hp]

theorem leaves_last {last gone : Bool} {x : α} (hp : p x = true) :
    leaves p last gone [x] = if gone then none else some [] := by
  simp [leaves, hp]

theorem leaves_skip {last gone : Bool} {x y : α} {ys : List α} (hp : p x = true) :
    leaves p last gone (x :: y :: ys) = (leaves p last true ys).map (y :: ·) := by
  simp [leaves, hp]

/-- The last element of a tail is that of the list. -/
theorem forall_getLast?_tail {P : α → Prop} {x : α} {xs : List α}
    (h : ∀ y ∈ (x :: xs).getLast?, P y) : ∀ y ∈ xs.getLast?, P y := by
  cases xs with
  | nil => exact fun y hy => absurd hy (by simp)
  | cons z zs => exact h

/-- **What the loop does from the place that it has come to**: `stale` is what stands behind the
last element, one element for each removal. -/
theorem foldlM_removeRound (last : Bool) (done todo stale rest : List α) (s : GoSlice α)
    (harray : s.array = done ++ todo ++ (stale ++ rest))
    (hlen : s.len = done.length + todo.length) (hstale : ∀ y ∈ stale, p y = last)
    (hlast : ∀ y ∈ todo.getLast?, p y = last) :
    ((List.range' done.length (todo.length + stale.length)).foldlM (removeRound p) s).map elems =
      (leaves p last (!stale.isEmpty) todo).map (done ++ ·) := by
  match todo with
  | [] =>
      have hdrop : s.array.drop done.length = stale ++ rest := by
        rw [harray, List.append_nil, List.drop_left]
      rw [List.length_nil, Nat.zero_add,
        foldlM_removeRound_stale hdrop (by simp [hlen]) hstale, leaves]
      split_ifs
      · rfl
      · have helems : s.elems = done := by
          rw [elems, harray, hlen, List.append_nil, List.length_nil, Nat.add_zero, List.take_left]
        simp [helems]
  | x :: xs =>
      have hx : s.array[done.length]? = some x := by
        rw [harray, List.append_assoc, List.getElem?_append_right (Nat.le_refl _), Nat.sub_self]
        rfl
      rw [List.length_cons, Nat.add_right_comm, List.range'_succ, List.foldlM_cons]
      cases hp : p x with
      | false =>
          have hround : removeRound p s done.length = some s := by
            simp [removeRound, hx, hp]
          have hrest := foldlM_removeRound last (done ++ [x]) xs stale rest s
            (by rw [harray]; simp) (by rw [hlen]; simp; omega) hstale (forall_getLast?_tail hlast)
          rw [List.length_append, List.length_singleton] at hrest
          rw [hround, leaves_not hp, Option.bind_eq_bind, Option.bind_some, hrest, Option.map_map]
          congr 1
          funext zs
          simp
      | true =>
          obtain ⟨t, ht, htlen, htarray⟩ := removeAt_eq harray hlen
          have hround : removeRound p s done.length = some t := by
            simp [removeRound, hx, hp, ht]
          rw [hround, Option.bind_eq_bind, Option.bind_some]
          match xs with
          | [] =>
              -- the last element is removed, and the loop goes on behind it
              have hplast : p x = last := hlast x rfl
              have helems : t.elems = done := by
                rw [elems, htarray, htlen]
                simp
              have hdrop : t.array.drop (done.length + 1) = stale ++ rest := by
                rw [htarray]
                simp [← List.drop_drop]
              rw [List.length_nil, Nat.zero_add, leaves_last hp,
                foldlM_removeRound_stale hdrop (by simp [htlen]) hstale, ← hplast, hp,
                Bool.and_true]
              split_ifs
              · rfl
              · simp [helems]
          | y :: ys =>
              -- the next element has moved to the place that the loop leaves
              obtain ⟨z, hz⟩ : ∃ z, (x :: y :: ys).drop (y :: ys).length = [z] :=
                List.length_eq_one_iff.mp (by simp)
              have hget : ((x :: y :: ys).drop (y :: ys).length).getLast? =
                  (x :: y :: ys).getLast? := by
                rw [List.getLast?_drop, if_neg (by simp)]
              have hmem : z ∈ (x :: y :: ys).getLast? := by
                rw [← hget, hz]
                rfl
              have hrest := foldlM_removeRound last (done ++ [y]) ys (z :: stale) rest t
                (by rw [htarray, hz]; simp) (by rw [htlen]; simp; omega)
                (List.forall_mem_cons.mpr ⟨hlast z hmem, hstale⟩)
                (forall_getLast?_tail (forall_getLast?_tail hlast))
              rw [List.length_append, List.length_singleton, List.length_cons] at hrest
              rw [leaves_skip hp, List.length_cons, Nat.add_right_comm, Nat.add_assoc, hrest,
                Option.map_map]
              congr 1
              funext zs
              simp
termination_by todo.length

/-- No two neighbours qualify, and the last element does not. -/
def Separate (p : α → Bool) (xs : List α) : Prop :=
  xs.IsChain (fun x y => ¬ (p x = true ∧ p y = true)) ∧ ∀ y ∈ xs.getLast?, p y = false

/-- After a removal, a last element that qualifies makes the loop panic. -/
theorem leaves_true_eq_none {xs : List α} (hlast : ∀ y ∈ xs.getLast?, p y = true) :
    leaves p true true xs = none := by
  induction xs using List.twoStepInduction with
  | nil => rfl
  | singleton x => exact leaves_last (hlast x rfl)
  | cons_cons x y ys ih ih' =>
      cases hp : p x with
      | false => rw [leaves_not hp, ih' y (forall_getLast?_tail hlast), Option.map_none]
      | true =>
          rw [leaves_skip hp, ih (forall_getLast?_tail (forall_getLast?_tail hlast)),
            Option.map_none]

/-- The elements that are kept do not qualify. -/
theorem map_cons_eq_filter_iff {o : Option (List α)} {y : α} {ys : List α} :
    o.map (y :: ·) = some ((y :: ys).filter (!p ·)) ↔
      p y = false ∧ o = some (ys.filter (!p ·)) := by
  cases hp : p y with
  | false =>
      rw [List.filter_cons_of_pos (by simp [hp])]
      simp
  | true =>
      rw [List.filter_cons_of_neg (by simp [hp])]
      refine iff_of_false ?_ (by simp)
      intro h
      obtain ⟨zs, -, hzs⟩ := Option.map_eq_some_iff.mp h
      have hmem : y ∈ ys.filter (!p ·) := hzs ▸ List.mem_cons_self
      simp [hp] at hmem

/-- **After a removal, with a last element that does not qualify**: what is left is what does not
qualify exactly if no two neighbours do. -/
theorem leaves_false_iff {xs : List α} (hlast : ∀ y ∈ xs.getLast?, p y = false) :
    leaves p false true xs = some (xs.filter (!p ·)) ↔
      xs.IsChain (fun x y => ¬ (p x = true ∧ p y = true)) := by
  induction xs using List.twoStepInduction with
  | nil => simp [leaves]
  | singleton x =>
      have hx := hlast x rfl
      simp [leaves, hx]
  | cons_cons x y ys ih ih' =>
      have hlast' := forall_getLast?_tail hlast
      cases hp : p x with
      | false =>
          rw [leaves_not hp, map_cons_eq_filter_iff, ih' y hlast', List.isChain_cons_cons]
          simp [hp]
      | true =>
          have hys : (y :: ys).IsChain (fun x y => ¬ (p x = true ∧ p y = true)) ∧ p y = false ↔
              p y = false ∧ ys.IsChain (fun x y => ¬ (p x = true ∧ p y = true)) := by
            cases ys with
            | nil => simp
            | cons z zs =>
                rw [List.isChain_cons_cons]
                constructor
                · rintro ⟨⟨-, hzs⟩, hy⟩
                  exact ⟨hy, hzs⟩
                · rintro ⟨hy, hzs⟩
                  exact ⟨⟨by simp [hy], hzs⟩, hy⟩
          rw [leaves_skip hp, List.filter_cons_of_neg (by simp [hp]), map_cons_eq_filter_iff,
            ih (forall_getLast?_tail hlast'), ← hys, List.isChain_cons_cons]
          simp [hp, and_comm]

/-- A list in which one element qualifies at most, and the first does. -/
theorem isChain_of_countP_le {x : α} {xs : List α} (hp : p x = true)
    (h : (x :: xs).countP p ≤ 1) :
    (x :: xs).IsChain (fun x y => ¬ (p x = true ∧ p y = true)) := by
  have hnone : ∀ y ∈ xs, p y = false := by
    rw [List.countP_cons_of_pos hp] at h
    have hzero : xs.countP p = 0 := by omega
    simpa using List.countP_eq_zero.mp hzero
  apply List.Pairwise.isChain
  rw [List.pairwise_cons]
  constructor
  · intro y hy
    simp [hnone y hy]
  · exact List.pairwise_of_forall_mem_list fun y hy _ _ => by simp [hnone y hy]

/-- **What the loop leaves, from the beginning.** -/
theorem leaves_iff {last : Bool} {xs : List α} (hlast : ∀ y ∈ xs.getLast?, p y = last) :
    leaves p last false xs = some (xs.filter (!p ·)) ↔ xs.countP p ≤ 1 ∨ Separate p xs := by
  induction xs with
  | nil => simp [leaves]
  | cons x xs ih =>
      cases hp : p x with
      | false =>
          have hsep : Separate p (x :: xs) ↔ Separate p xs := by
            cases xs with
            | nil => simp [Separate, hp]
            | cons y ys => simp [Separate, hp]
          rw [leaves_not hp, map_cons_eq_filter_iff, ih (forall_getLast?_tail hlast), hsep,
            List.countP_cons_of_neg (by simp [hp])]
          simp [hp]
      | true =>
          cases xs with
          | nil => simp [leaves_last hp, hp]
          | cons y ys =>
              have hlast' := forall_getLast?_tail hlast
              rw [leaves_skip hp]
              cases last with
              | true =>
                  -- the loop removes the first element, and panics at the end
                  have hmem : (y :: ys).getLast (by simp) ∈ (y :: ys).getLast? :=
                    List.getLast?_eq_some_getLast (by simp)
                  have hlastp := hlast' _ hmem
                  have hpos : 0 < (y :: ys).countP p :=
                    List.countP_pos_iff.mpr ⟨_, List.getLast_mem (by simp), hlastp⟩
                  rw [leaves_true_eq_none (forall_getLast?_tail hlast'), Option.map_none,
                    List.countP_cons_of_pos hp]
                  refine iff_of_false (by simp) ?_
                  rintro (hcount | ⟨-, hnone⟩)
                  · omega
                  · have hfalse := hnone _ (show (y :: ys).getLast (by simp) ∈ _ from hmem)
                    rw [hlastp] at hfalse
                    cases hfalse
              | false =>
                  have hchain := leaves_false_iff hlast
                  rw [leaves_skip hp] at hchain
                  rw [hchain]
                  constructor
                  · exact fun h => .inr ⟨h, hlast⟩
                  · rintro (hcount | ⟨h, -⟩)
                    · exact isChain_of_countP_le hp hcount
                    · exact h

/-- **A loop over a slice that removes what qualifies**: it does exactly if one element qualifies at
most, or if no two neighbours do and the last element does not. -/
theorem rangeRemove_iff (p : α → Bool) (xs spare : List α) :
    (rangeRemove p (ofList xs spare)).map elems = some (xs.filter (!p ·)) ↔
      xs.countP p ≤ 1 ∨ Separate p xs := by
  obtain ⟨last, hlast⟩ : ∃ last, ∀ y ∈ xs.getLast?, p y = last := by
    cases xs.getLast? with
    | none => exact ⟨true, by simp⟩
    | some z => exact ⟨p z, by simp⟩
  have hloop := foldlM_removeRound last [] xs [] spare (ofList xs spare) (by simp [ofList])
    (by simp [ofList]) (by simp) hlast
  rw [← leaves_iff hlast, rangeRemove, List.range_eq_range']
  rw [List.length_nil, Nat.add_zero] at hloop
  rw [show (ofList xs spare).len = xs.length from rfl, hloop]
  simp

end rangeRemove

end GoSlice

end LingmoAuthenticate.Lib
