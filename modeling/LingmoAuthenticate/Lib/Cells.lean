import Mathlib.Data.List.Range
import Mathlib.Data.Int.Notation

/-!
# Arrays of C

An array is the list of its cells, and a cell has a value or has not been written yet. What C leaves
undefined is `none`: an access outside of the array, and a read of a cell that was not written.

* `read`, `write`, `memcpy`, `malloc`; `ofList` is an array that is written all over.
* `read_ofList`, `write_ofList`, `memcpy_ofList`: what becomes of such an array.
* `write_next`: the cell that comes next is written.
-/

namespace LingmoAuthenticate.Lib

universe u

/-- The cells of an array. -/
abbrev Cells (α : Type u) := List (Option α)

namespace Cells

variable {α : Type u}

/-- A new array; nothing is written. -/
def malloc (α : Type u) (n : ℕ) : Cells α := List.replicate n none

/-- The array that has these values. -/
def ofList (xs : List α) : Cells α := xs.map some

/-- The value of a cell. -/
def read (cells : Cells α) (i : ℕ) : Option α := cells[i]?.join

/-- The array, with a value in one of its cells. -/
def write (c : Cells α) (i : ℕ) (x : α) : Option (Cells α) :=
  if i < c.length then some (c.set i (some x)) else none

/-- The first `n` cells of an array are copied to the beginning of another. -/
def memcpy (dst src : Cells α) (n : ℕ) : Option (Cells α) :=
  if n ≤ dst.length ∧ n ≤ src.length then some (src.take n ++ dst.drop n) else none

/-! ## Arrays that are written all over -/

theorem length_ofList (xs : List α) : (ofList xs).length = xs.length :=
  List.length_map some

theorem read_ofList (xs : List α) (i : ℕ) : (ofList xs).read i = xs[i]? := by
  rw [read, ofList, List.getElem?_map]
  cases xs[i]? with
  | none => rfl
  | some x => rfl

theorem read_ofList_of_lt {xs : List α} {i : ℕ} (h : i < xs.length) :
    (ofList xs).read i = some xs[i] := by
  rw [read_ofList, List.getElem?_eq_getElem h]

theorem write_ofList {xs : List α} {i : ℕ} (h : i < xs.length) (x : α) :
    (ofList xs).write i x = some (ofList (xs.set i x)) := by
  rw [write, if_pos (by rwa [length_ofList]), ofList, ofList, List.map_set]

/-- An array that is copied to the beginning of a new one, and one cell more. -/
theorem memcpy_ofList (xs : List α) :
    (malloc α (xs.length + 1)).memcpy (ofList xs) xs.length = some (ofList xs ++ [none]) := by
  have hroom : xs.length ≤ (malloc α (xs.length + 1)).length := by simp [malloc]
  have htake : (ofList xs).take xs.length = ofList xs := by
    rw [← length_ofList xs, List.take_length]
  have hdrop : (malloc α (xs.length + 1)).drop xs.length = [none] := by
    simp [malloc]
  rw [memcpy, if_pos ⟨hroom, by rw [length_ofList]⟩, htake, hdrop]

/-- The cell that comes next is written. -/
theorem write_next (xs : List α) (rest : Cells α) (o : Option α) (x : α) :
    (ofList xs ++ o :: rest).write xs.length x = some (ofList (xs ++ [x]) ++ rest) := by
  have hset : (ofList xs ++ o :: rest).set xs.length (some x) = ofList xs ++ some x :: rest := by
    rw [← length_ofList xs, List.set_append_right _ _ (Nat.le_refl _), Nat.sub_self,
      List.set_cons_zero]
  rw [write, if_pos (by simp [length_ofList]), hset]
  simp [ofList]

end Cells

end LingmoAuthenticate.Lib
