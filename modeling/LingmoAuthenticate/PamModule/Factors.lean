import Mathlib.Data.List.Nodup
import Mathlib.Data.List.Range
import Mathlib.Tactic.Lemma

/-!
# The factors of a session, as the PAM module reads them

`resolve_authctrl_factors` reads the property `FactorsInfo` into an array, and sorts the positions
of the array by priority: `factorOrder` is the list of positions, and the loop swaps it along with a
copy of the priorities.

* `factorOrder_perm`: whatever the priorities are, every position is in the order once. An
  `AuthSession` carries that.
* `AuthSession.types`, the types in that order, and `AuthSession.nodup_types`.
-/

namespace LingmoAuthenticate.PamModule

/-- A factor of a session: its type, its place in the order, the input that it needs, and whether it
is required. Source: `common.h`, `AuthFactor`. -/
structure AuthFactor where
  authType : ℤ
  priority : ℤ
  inputType : ℤ
  required : Bool
  deriving DecidableEq, Repr

/-! ## Sorting the positions -/

section sort

variable {α : Type} {xs : List α} {i j : ℕ}

/-- Two elements of an array change places. -/
def swap (xs : List α) (i j : ℕ) : List α :=
  if h : i < xs.length ∧ j < xs.length then (xs.set i xs[j]).set j xs[i] else xs

theorem swap_perm (xs : List α) (i j : ℕ) : (swap xs i j).Perm xs := by
  unfold swap
  split_ifs with h
  · exact List.set_set_perm h.1 h.2
  · exact .refl xs

end sort

/-- The position of the greatest element from `i` on, the first of them.
Source: `utils.c`, the loop over `j` in `resolve_authctrl_factors`. -/
def maxIdx (order : List ℤ) (i : ℕ) : ℕ :=
  (List.range' (i + 1) (order.length - (i + 1))).foldl
    (fun max_idx j => if order.getD max_idx 0 < order.getD j 0 then j else max_idx) i

/-- One round: `factorOrder` and the priorities are swapped alike.
Source: `utils.c`, the loop over `i` in `resolve_authctrl_factors`. -/
def sortRound (s : List ℕ × List ℤ) (i : ℕ) : List ℕ × List ℤ :=
  let max_idx := maxIdx s.2 i
  (swap s.1 i max_idx, swap s.2 i max_idx)

/-- Source: `utils.c`, `resolve_authctrl_factors`. -/
def factorOrder (factors : List AuthFactor) : List ℕ :=
  ((List.range (factors.length - 1)).foldl sortRound
    (List.range factors.length, factors.map AuthFactor.priority)).1

example : factorOrder [⟨1, 2, 1, true⟩, ⟨2, 5, 2, true⟩, ⟨4, 3, 2, true⟩] = [1, 2, 0] := by decide

/-- **Every position once**, whatever the priorities are. -/
theorem factorOrder_perm (factors : List AuthFactor) :
    (factorOrder factors).Perm (List.range factors.length) := by
  have hrounds : ∀ (is : List ℕ) (s : List ℕ × List ℤ), (is.foldl sortRound s).1.Perm s.1 := by
    intro is
    induction is with
    | nil => exact fun s => .refl s.1
    | cons i is ih => exact fun s => (ih (sortRound s i)).trans (swap_perm s.1 i _)
  exact hrounds _ _

/-! ## The session -/

/-- Of the session, what the client acts on: whether it needs several factors, which ones, and in
which order, each once (`perm`). Source: `common.h`, `AuthSession`. -/
structure AuthSession where
  isMFA : Bool
  factors : List AuthFactor
  factorOrder : List ℕ
  perm : factorOrder.Perm (List.range factors.length)

/-- Source: `utils.c`, `resolve_authctrl_factors`, of the factors that the message has, and
`get_authctl_property`. -/
def resolveAuthctrlFactors (isMFA : Bool) (factors : List AuthFactor) : AuthSession where
  isMFA := isMFA
  factors := factors
  factorOrder := factorOrder factors
  perm := factorOrder_perm factors

namespace AuthSession

/-- The number of factors. Source: `common.h`, `factorSize`. -/
def factorSize (a : AuthSession) : ℕ := a.factors.length

/-- `factors[factorOrder[idx]].authType`, for every `idx`. -/
def types (a : AuthSession) : List ℤ :=
  a.factorOrder.filterMap fun i => a.factors[i]?.map AuthFactor.authType

/-- The types in order are those of the factors. -/
theorem types_perm (a : AuthSession) : a.types.Perm (a.factors.map AuthFactor.authType) := by
  have hall : ∀ fs : List AuthFactor, (List.range fs.length).filterMap
      (fun i => fs[i]?.map AuthFactor.authType) = fs.map AuthFactor.authType := by
    intro fs
    induction fs using List.reverseRecOn with
    | nil => rfl
    | append_singleton fs f ih =>
        rw [List.length_append, List.length_singleton, List.range_succ, List.filterMap_append,
          List.map_append]
        congr 1
        · rw [← ih]
          apply List.filterMap_congr
          intro i hi
          rw [List.getElem?_append_left (List.mem_range.mp hi)]
        · simp
  rw [← hall a.factors]
  exact a.perm.filterMap _

theorem length_types (a : AuthSession) : a.types.length = a.factorSize := by
  rw [a.types_perm.length_eq, List.length_map, factorSize]

/-- Distinct types are distinct in order. -/
theorem nodup_types {a : AuthSession} (h : (a.factors.map AuthFactor.authType).Nodup) :
    a.types.Nodup :=
  a.types_perm.nodup_iff.mpr h

end AuthSession

end LingmoAuthenticate.PamModule
