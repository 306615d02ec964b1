import Mathlib.Data.List.Basic
import Mathlib.Tactic.Lemma

/-!
# Paths of files

A path is a list of bytes, as Unix has it. `Clean` and `Join` are those of Go's `path/filepath`: a
path is cut at the slashes, empty elements and dots are left out, and two dots take the element
before them away, or stay at the beginning of a path that is not rooted.

* `join_absolute`: what is joined to a clean rooted path is resolved element by element.
* `IsChild dir p`: the path is that of a file in the directory itself.
* `isChild_join_name`: a name that is joined to a directory is that of a file in it.
* `isChild_join_iff`: of the texts without a slash only the names are.
-/

namespace LingmoAuthenticate.Lib

/-- The bytes of an ASCII text. -/
def bytes (s : String) : List UInt8 := s.toList.map fun c => UInt8.ofNat c.toNat

namespace Path

/-- The separator. -/
abbrev slash : UInt8 := 47

/-- The directory itself. -/
abbrev dot : List UInt8 := [46]

/-- The directory above. -/
abbrev dotDot : List UInt8 := [46, 46]

/-- The name of a file in a directory. -/
def IsName (name : List UInt8) : Prop :=
  name ≠ [] ∧ slash ∉ name ∧ name ≠ dot ∧ name ≠ dotDot

instance (name : List UInt8) : Decidable (IsName name) := inferInstanceAs (Decidable (_ ∧ _))

/-- Go on from the elements `comps` by one more. -/
def push (rooted : Bool) (comps : List (List UInt8)) (c : List UInt8) : List (List UInt8) :=
  if c = [] ∨ c = dot then comps
  else if c = dotDot then
    if comps ≠ [] ∧ comps.getLast? ≠ some dotDot then comps.dropLast
    else if rooted then comps
    else comps ++ [c]
  else comps ++ [c]

/-- The rooted path of some elements. -/
def absolute (comps : List (List UInt8)) : List UInt8 := slash :: [slash].intercalate comps

/-- Source: Go's `filepath.Clean`. -/
def clean (p : List UInt8) : List UInt8 :=
  let rooted := p.head? = some slash
  let comps := (p.splitOn slash).foldl (push rooted) []
  if rooted then absolute comps else if comps = [] then dot else [slash].intercalate comps

/-- Source: Go's `filepath.Join`. -/
def join (elems : List (List UInt8)) : List UInt8 :=
  match elems.dropWhile (· == []) with
  | [] => []
  | rest => clean ([slash].intercalate rest)

/-- The path of a file in the directory itself. -/
def IsChild (dir p : List UInt8) : Prop := ∃ name, IsName name ∧ p = dir ++ slash :: name

variable {comps : List (List UInt8)} {name x : List UInt8}

/-- A name is one more element. -/
theorem push_name (rooted : Bool) (h : IsName name) : push rooted comps name = comps ++ [name] := by
  obtain ⟨hne, -, hdot, hdotDot⟩ := h
  rw [push, if_neg (not_or.mpr ⟨hne, hdot⟩), if_neg hdotDot]

/-- Names are elements that are kept. -/
theorem foldl_push_names (rooted : Bool) (h : ∀ c ∈ comps, IsName c) (before : List (List UInt8)) :
    comps.foldl (push rooted) before = before ++ comps := by
  induction comps generalizing before with
  | nil => simp
  | cons c comps ih =>
      obtain ⟨hc, hcomps⟩ := List.forall_mem_cons.mp h
      rw [List.foldl_cons, push_name rooted hc, ih hcomps, List.append_assoc, List.singleton_append]

/-- The elements of a clean rooted path. -/
theorem splitOn_absolute (hne : comps ≠ []) (h : ∀ c ∈ comps, IsName c) :
    (absolute comps).splitOn slash = [] :: comps := by
  have hcut := List.splitOn_append_cons_self (a := slash) [] ([slash].intercalate comps)
  rw [List.nil_append] at hcut
  rw [absolute, hcut, List.splitOn_intercalate slash (fun c hc => (h c hc).2.1) hne]
  rfl

/-- **What is joined to a clean rooted path** is resolved from there, element by element. -/
theorem join_absolute (hne : comps ≠ []) (h : ∀ c ∈ comps, IsName c) (x : List UInt8) :
    join [absolute comps, x] = absolute ((x.splitOn slash).foldl (push true) comps) := by
  have hfilled : [absolute comps, x].dropWhile (· == []) = [absolute comps, x] := rfl
  have hpath : [slash].intercalate [absolute comps, x] = absolute comps ++ slash :: x := by
    simp [List.intercalate, List.intersperse]
  have hrooted : (absolute comps ++ slash :: x).head? = some slash := rfl
  rw [join, hfilled]
  simp only [hpath, clean, hrooted, if_true, decide_true]
  rw [List.splitOn_append_cons_self, splitOn_absolute hne h, List.foldl_append, List.foldl_cons]
  rw [show push true [] [] = [] from rfl, foldl_push_names true h, List.nil_append]

/-- One element more at the end of a path. -/
theorem absolute_append (hne : comps ≠ []) (name : List UInt8) :
    absolute (comps ++ [name]) = absolute comps ++ slash :: name := by
  rw [absolute, absolute, List.cons_append]
  congr 1
  induction comps with
  | nil => exact absurd rfl hne
  | cons c comps ih =>
      rcases comps with _ | ⟨d, comps⟩
      · simp [List.intercalate]
      · have hrest := ih (List.cons_ne_nil d comps)
        rw [List.cons_append] at hrest
        rw [List.cons_append, List.cons_append, List.intercalate_cons_cons, hrest,
          List.intercalate_cons_cons]
        simp only [List.append_assoc]

/-- A name that is joined to a directory comes behind it. -/
theorem join_name (hne : comps ≠ []) (h : ∀ c ∈ comps, IsName c) (hname : IsName name) :
    join [absolute comps, name] = absolute comps ++ slash :: name := by
  rw [join_absolute hne h, List.splitOn_eq_singleton hname.2.1, List.foldl_cons, List.foldl_nil,
    push_name true hname, absolute_append hne]

/-- **A name that is joined to a directory is that of a file in it.** -/
theorem isChild_join_name (hne : comps ≠ []) (h : ∀ c ∈ comps, IsName c) (hname : IsName name) :
    IsChild (absolute comps) (join [absolute comps, name]) :=
  ⟨name, hname, join_name hne h hname⟩

/-- What is not longer than the directory is no file in it. -/
theorem not_isChild_of_length_le {dir p : List UInt8} (h : p.length ≤ dir.length) :
    ¬ IsChild dir p := by
  rintro ⟨name, -, rfl⟩
  rw [List.length_append, List.length_cons] at h
  omega

/-- The directory above is not longer. -/
theorem length_absolute_dropLast_le (comps : List (List UInt8)) :
    (absolute comps.dropLast).length ≤ (absolute comps).length := by
  rcases List.eq_nil_or_concat comps with rfl | ⟨l, c, rfl⟩
  · exact Nat.le_refl _
  · rw [List.concat_eq_append, List.dropLast_concat]
    by_cases hl : l = []
    · simp [hl, absolute]
    · rw [absolute_append hl, List.length_append]
      exact Nat.le_add_right _ _

/-- **Of the texts without a slash only the names are those of files in the directory.** -/
theorem isChild_join_iff (hne : comps ≠ []) (h : ∀ c ∈ comps, IsName c) (hx : slash ∉ x) :
    IsChild (absolute comps) (join [absolute comps, x]) ↔ IsName x := by
  refine ⟨?_, isChild_join_name hne h⟩
  intro hchild
  rw [join_absolute hne h, List.splitOn_eq_singleton hx, List.foldl_cons, List.foldl_nil] at hchild
  have hlong : ∀ comps', (absolute comps').length ≤ (absolute comps).length →
      push true comps x ≠ comps' := by
    rintro comps' hle rfl
    exact not_isChild_of_length_le hle hchild
  have hlast : comps ≠ [] ∧ comps.getLast? ≠ some dotDot := by
    refine ⟨hne, ?_⟩
    intro hdots
    exact (h dotDot (List.mem_of_getLast? hdots)).2.2.2 rfl
  refine ⟨?_, hx, ?_, ?_⟩
  · rintro rfl
    exact hlong comps (Nat.le_refl _) rfl
  · rintro rfl
    exact hlong comps (Nat.le_refl _) rfl
  · rintro rfl
    refine hlong comps.dropLast (length_absolute_dropLast_le comps) ?_
    rw [push, if_neg (by decide), if_pos rfl, if_pos hlast]

end Path

end LingmoAuthenticate.Lib
