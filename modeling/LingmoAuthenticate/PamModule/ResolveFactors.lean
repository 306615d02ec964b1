import Mathlib.Data.Int.Order.Basic
import Mathlib.Data.List.GetD
import LingmoAuthenticate.Lib.Cells
import LingmoAuthenticate.PamModule.Factors

/-!
# `resolve_authctrl_factors`, with its arrays

The factors of the message are read into an array that grows by one cell in each round, and their
positions are sorted by priority: a selection sort of the priorities, in an array of their own, in
which the positions go along. An access that C leaves undefined is `none`.

* `resolveAuthctrlFactorsArrays_eq`: nothing is undefined, the array has the factors of the message,
  and `factorOrder` is that of `Factors`.
* `factorOrder_pairwise`: in that order no priority is below one that comes later.
* `factors_in_order`: the two together.
-/

namespace LingmoAuthenticate.PamModule

open Lib

/-! ## The arrays -/

/-- What `resolve_authctrl_factors` writes of an `AuthSession`: the factors, how many there are, and
their order; a null pointer is `none`. -/
structure ResolvedFactors where
  factors : Option (Cells AuthFactor)
  factorSize : ℕ
  factorOrder : Cells ℕ

/-- An array of one cell more, with the factors so far. -/
def growFactors (factors : Option (Cells AuthFactor)) (length : ℕ) : Option (Cells AuthFactor) :=
  let tmp_factors := Cells.malloc AuthFactor (length + 1)
  if length ≠ 0 then do tmp_factors.memcpy (← factors) length else some tmp_factors

/-- The loop that reads, for what is left of the message; after the last factor
`sd_bus_message_read` reports the end. -/
def readFactors (factors : Option (Cells AuthFactor)) (length : ℕ) :
    List AuthFactor → Option (Option (Cells AuthFactor) × ℕ)
  | [] => do
      let _ ← growFactors factors length
      return (factors, length)
  | factor :: data => do
      let tmp_factors ← growFactors factors length
      readFactors (some (← tmp_factors.write length factor)) (length + 1) data

/-- The priorities, and the positions from 0 on; both arrays are new. -/
def fillOrder (factors : Option (Cells AuthFactor)) (length : ℕ) :
    Option (Cells ℕ × Cells ℤ) :=
  (List.range length).foldlM
    (fun s i => do
      let order ← s.2.write i (← (← factors).read i).priority
      return (← s.1.write i i, order))
    (Cells.malloc ℕ length, List.replicate length (some 0))

/-- Two cells change places, by way of `tmp`. -/
def swapCells {α : Type} (c : Cells α) (i j : ℕ) : Option (Cells α) := do
  let tmp ← c.read i
  (← c.write i (← c.read j)).write j tmp

/-- The loop over `j`. -/
def findMax (order : Cells ℤ) (length i : ℕ) : Option ℕ :=
  (List.range' (i + 1) (length - (i + 1))).foldlM
    (fun max_idx j => do
      return if (← order.read max_idx) < (← order.read j) then j else max_idx) i

/-- A round of the loop over `i`; the factor is read for the log. -/
def selectRound (factors : Option (Cells AuthFactor)) (length : ℕ) (s : Cells ℕ × Cells ℤ)
    (i : ℕ) : Option (Cells ℕ × Cells ℤ) := do
  let _ ← (← factors).read i
  let max_idx ← findMax s.2 length i
  return (← swapCells s.1 i max_idx, ← swapCells s.2 i max_idx)

/-- `auth_res` is a session whose factors are `factors` by now; `data` is what the message has.
Source: `utils.c`, `resolve_authctrl_factors`. -/
def resolveAuthctrlFactorsArrays (factors : Option (Cells AuthFactor)) (data : List AuthFactor) :
    Option ResolvedFactors := do
  let (factors, length) ← readFactors factors 0 data
  let s ← (List.range (length - 1)).foldlM (selectRound factors length)
    (← fillOrder factors length)
  return { factors, factorSize := length, factorOrder := s.1 }

/-! ## Reading the message -/

/-- After some factors have been read, the others are read behind them. -/
theorem readFactors_ofList (read data : List AuthFactor) (hread : read ≠ []) :
    readFactors (some (.ofList read)) read.length data =
      some (some (.ofList (read ++ data)), (read ++ data).length) := by
  have hgrow : ∀ fs : List AuthFactor, fs ≠ [] →
      growFactors (some (.ofList fs)) fs.length =
        some (Cells.ofList fs ++ [none]) := by
    intro fs hfs
    have hlen : fs.length ≠ 0 := by simpa using hfs
    rw [growFactors, if_pos hlen]
    simpa using Cells.memcpy_ofList fs
  induction data generalizing read with
  | nil => simp [readFactors, hgrow read hread]
  | cons factor data ih =>
      have hnext := ih (read ++ [factor]) (by simp)
      rw [List.length_append, List.length_singleton, List.append_assoc] at hnext
      have hwrite := Cells.write_next read [] none factor
      rw [List.append_nil] at hwrite
      simp only [readFactors, hgrow read hread, Option.bind_eq_bind, Option.bind_some, hwrite]
      exact hnext

/-- **What is read is what the message has.** Where it has nothing, the session keeps the factors
that it had. -/
theorem readFactors_eq (factors : Option (Cells AuthFactor)) (data : List AuthFactor) :
    readFactors factors 0 data =
      some (if data = [] then factors else some (.ofList data), data.length) := by
  cases data with
  | nil => simp [readFactors, growFactors]
  | cons factor data =>
      have hwrite := Cells.write_next [] [] none factor
      have hrest := readFactors_ofList [factor] data (by simp)
      simp only [readFactors, growFactors, ne_eq, not_true_eq_false, if_false,
        Option.bind_eq_bind, Option.bind_some]
      rw [show (Cells.malloc AuthFactor (0 + 1)).write 0 factor = some (.ofList [factor]) from rfl,
        Option.bind_some]
      exact hrest

/-! ## The loops, on arrays that are written all over -/

/-- The two arrays after the first loop. -/
theorem fillOrder_ofList (fs : List AuthFactor) :
    fillOrder (some (.ofList fs)) fs.length =
      some (.ofList (List.range fs.length), .ofList (fs.map AuthFactor.priority)) := by
  have hloop : ∀ n ≤ fs.length, (List.range n).foldlM
      (fun (s : Cells ℕ × Cells ℤ) i => do
        let order ← s.2.write i (← (← some (Cells.ofList fs)).read i).priority
        return (← s.1.write i i, order))
      (Cells.malloc ℕ fs.length, List.replicate fs.length (some 0)) =
      some (Cells.ofList (List.range n) ++ (Cells.malloc ℕ fs.length).drop n,
        Cells.ofList ((fs.map AuthFactor.priority).take n) ++
          (List.replicate fs.length (some 0)).drop n) := by
    intro n hn
    induction n with
    | zero => simp [Cells.ofList]
    | succ n ih =>
        have hlt : n < fs.length := hn
        have hfresh : (Cells.malloc ℕ fs.length).drop n =
            none :: (Cells.malloc ℕ fs.length).drop (n + 1) := by
          rw [List.drop_eq_getElem_cons (by simpa [Cells.malloc] using hlt)]
          simp [Cells.malloc]
        have hzero : (List.replicate fs.length (some (0 : ℤ))).drop n =
            some 0 :: (List.replicate fs.length (some (0 : ℤ))).drop (n + 1) := by
          rw [List.drop_eq_getElem_cons (by simpa using hlt)]
          simp
        have htake : (fs.map AuthFactor.priority).take (n + 1) =
            (fs.map AuthFactor.priority).take n ++ [fs[n].priority] := by
          rw [List.take_succ_eq_append_getElem (by simpa using hlt), List.getElem_map]
        have hpos := Cells.write_next (List.range n)
          ((Cells.malloc ℕ fs.length).drop (n + 1)) none n
        have hprio := Cells.write_next ((fs.map AuthFactor.priority).take n)
          ((List.replicate fs.length (some (0 : ℤ))).drop (n + 1)) (some 0) fs[n].priority
        rw [List.length_range] at hpos
        rw [List.length_take, List.length_map, Nat.min_eq_left hlt.le] at hprio
        rw [List.range_succ, List.foldlM_append, ih hlt.le, hfresh, hzero, htake]
        simp only [List.foldlM_cons, List.foldlM_nil, Option.bind_eq_bind, Option.bind_some,
          Cells.read_ofList_of_lt hlt, hprio, hpos]
        rfl
  have hall := hloop fs.length (Nat.le_refl _)
  have htake : (fs.map AuthFactor.priority).take fs.length = fs.map AuthFactor.priority := by
    apply List.take_of_length_le
    rw [List.length_map]
  rw [fillOrder, hall, htake]
  simp [Cells.malloc]

theorem swapCells_ofList {α : Type} {xs : List α} {i j : ℕ} (hi : i < xs.length)
    (hj : j < xs.length) : swapCells (.ofList xs) i j = some (.ofList (swap xs i j)) := by
  have hj' : j < (xs.set i xs[j]).length := by rwa [List.length_set]
  simp only [swapCells, Option.bind_eq_bind, Cells.read_ofList_of_lt hi,
    Cells.read_ofList_of_lt hj, Cells.write_ofList hi, Option.bind_some,
    Cells.write_ofList hj', swap, dif_pos (And.intro hi hj)]

/-- A comparison of cells. -/
theorem read_lt_ofList {xs : List ℤ} {i j : ℕ} (hi : i < xs.length) (hj : j < xs.length) :
    (do return if (← (Cells.ofList xs).read i) < (← (Cells.ofList xs).read j) then j else i) =
      some (if xs.getD i 0 < xs.getD j 0 then j else i) := by
  rw [Cells.read_ofList_of_lt hi, Cells.read_ofList_of_lt hj, List.getD_eq_getElem _ _ hi,
    List.getD_eq_getElem _ _ hj]
  rfl

theorem findMax_ofList {xs : List ℤ} {i : ℕ} (hi : i < xs.length) :
    findMax (.ofList xs) xs.length i = some (maxIdx xs i) ∧ maxIdx xs i < xs.length := by
  have hloop : ∀ (js : List ℕ) (m : ℕ), (∀ j ∈ js, j < xs.length) → m < xs.length →
      js.foldlM (fun max_idx j => do
        return if (← (Cells.ofList xs).read max_idx) < (← (Cells.ofList xs).read j) then j
          else max_idx) m =
        some (js.foldl (fun max_idx j =>
          if xs.getD max_idx 0 < xs.getD j 0 then j else max_idx) m) ∧
      js.foldl (fun max_idx j => if xs.getD max_idx 0 < xs.getD j 0 then j else max_idx) m <
        xs.length := by
    intro js
    induction js with
    | nil => exact fun m _ hm => ⟨rfl, hm⟩
    | cons j js ih =>
        intro m hjs hm
        obtain ⟨hj, hjs⟩ := List.forall_mem_cons.mp hjs
        have hnext : (if xs.getD m 0 < xs.getD j 0 then j else m) < xs.length := by
          split_ifs
          · exact hj
          · exact hm
        rw [List.foldlM_cons, read_lt_ofList hm hj]
        exact ih _ hjs hnext
  refine hloop _ i ?_ hi
  intro j hj
  rw [List.mem_range'_1] at hj
  omega

theorem length_swap {α : Type} (xs : List α) (i j : ℕ) : (swap xs i j).length = xs.length :=
  (swap_perm xs i j).length_eq

/-- A round, on arrays of one length. -/
theorem selectRound_ofList {fs : List AuthFactor} {positions : List ℕ} {keys : List ℤ} {i : ℕ}
    (hp : positions.length = fs.length) (hk : keys.length = fs.length) (hi : i < fs.length) :
    selectRound (some (.ofList fs)) fs.length (.ofList positions, .ofList keys) i =
      some (.ofList (sortRound (positions, keys) i).1,
        .ofList (sortRound (positions, keys) i).2) := by
  have hi' : i < keys.length := by rwa [hk]
  have hi'' : i < positions.length := by rwa [hp]
  obtain ⟨hfind, hlt⟩ := findMax_ofList hi'
  have hlt' : maxIdx keys i < positions.length := by rwa [hp, ← hk]
  rw [hk] at hfind
  simp only [selectRound, sortRound, Option.bind_eq_bind, Option.bind_some,
    Cells.read_ofList_of_lt hi, hfind, swapCells_ofList hi'' hlt', swapCells_ofList hi' hlt]
  rfl

/-- The rounds. -/
theorem selectRounds_ofList {fs : List AuthFactor} (is : List ℕ) {positions : List ℕ}
    {keys : List ℤ} (hp : positions.length = fs.length) (hk : keys.length = fs.length)
    (his : ∀ i ∈ is, i < fs.length) :
    is.foldlM (selectRound (some (.ofList fs)) fs.length) (.ofList positions, .ofList keys) =
      some (.ofList (is.foldl sortRound (positions, keys)).1,
        .ofList (is.foldl sortRound (positions, keys)).2) := by
  induction is generalizing positions keys with
  | nil => rfl
  | cons i is ih =>
      obtain ⟨hi, his⟩ := List.forall_mem_cons.mp his
      rw [List.foldlM_cons, selectRound_ofList hp hk hi, Option.bind_eq_bind, Option.bind_some]
      exact ih (by rw [sortRound, length_swap, hp]) (by rw [sortRound, length_swap, hk]) his

/-- **Nothing is undefined**, and the positions are those of `factorOrder`. -/
theorem resolveAuthctrlFactorsArrays_eq (factors : Option (Cells AuthFactor))
    (data : List AuthFactor) :
    resolveAuthctrlFactorsArrays factors data =
      some { factors := if data = [] then factors else some (.ofList data),
             factorSize := data.length,
             factorOrder := .ofList (factorOrder data) } := by
  by_cases hdata : data = []
  · subst hdata
    rfl
  · have hpositions : (List.range data.length).length = data.length := List.length_range
    have hkeys : (data.map AuthFactor.priority).length = data.length := List.length_map _
    have hrounds := selectRounds_ofList (List.range (data.length - 1)) hpositions hkeys (by
        intro i hi
        have hlt := List.mem_range.mp hi
        omega)
    simp only [resolveAuthctrlFactorsArrays, readFactors_eq, if_neg hdata, Option.bind_eq_bind,
      Option.bind_some, fillOrder_ofList, hrounds]
    rfl

/-! ## The order -/

/-- Where the elements come from when two change places. -/
theorem getD_swap {α : Type} {xs : List α} {i j : ℕ} (hi : i < xs.length) (hj : j < xs.length)
    (k : ℕ) (d : α) :
    (swap xs i j).getD k d = xs.getD (if k = j then i else if k = i then j else k) d := by
  rw [swap, dif_pos ⟨hi, hj⟩, List.getD_eq_getElem?_getD, List.getD_eq_getElem?_getD]
  by_cases hkj : k = j
  · rw [if_pos hkj, hkj, List.getElem?_set_self (by rwa [List.length_set]),
      List.getElem?_eq_getElem hi]
  · rw [if_neg hkj, List.getElem?_set_ne (Ne.symm hkj)]
    by_cases hki : k = i
    · rw [if_pos hki, hki, List.getElem?_set_self hi, List.getElem?_eq_getElem hj]
    · rw [if_neg hki, List.getElem?_set_ne (Ne.symm hki)]

theorem map_swap {α β : Type} (f : α → β) (xs : List α) (i j : ℕ) :
    (swap xs i j).map f = swap (xs.map f) i j := by
  unfold swap
  by_cases h : i < xs.length ∧ j < xs.length
  · rw [dif_pos h, dif_pos (by simpa using h), List.map_set, List.map_set, List.getElem_map,
      List.getElem_map]
  · rw [dif_neg h, dif_neg (by simpa using h)]

/-- **The greatest of what is left**, from `i` on. -/
theorem maxIdx_spec {keys : List ℤ} {i : ℕ} (hi : i < keys.length) :
    i ≤ maxIdx keys i ∧ ∀ j, i ≤ j → j < keys.length →
      keys.getD j 0 ≤ keys.getD (maxIdx keys i) 0 := by
  have hloop : ∀ (js : List ℕ) (m : ℕ), (∀ j ∈ js, i ≤ j) → i ≤ m →
      let r := js.foldl (fun max_idx j =>
        if keys.getD max_idx 0 < keys.getD j 0 then j else max_idx) m
      i ≤ r ∧ keys.getD m 0 ≤ keys.getD r 0 ∧ ∀ j ∈ js, keys.getD j 0 ≤ keys.getD r 0 := by
    intro js
    induction js with
    | nil => exact fun m _ hm => ⟨hm, le_refl _, by simp⟩
    | cons j js ih =>
        intro m hjs hm
        obtain ⟨hj, hjs⟩ := List.forall_mem_cons.mp hjs
        by_cases hlt : keys.getD m 0 < keys.getD j 0
        · obtain ⟨h₁, h₂, h₃⟩ := ih j hjs hj
          rw [List.foldl_cons, if_pos hlt]
          exact ⟨h₁, hlt.le.trans h₂, List.forall_mem_cons.mpr ⟨h₂, h₃⟩⟩
        · obtain ⟨h₁, h₂, h₃⟩ := ih m hjs hm
          rw [List.foldl_cons, if_neg hlt]
          exact ⟨h₁, h₂, List.forall_mem_cons.mpr ⟨(not_lt.mp hlt).trans h₂, h₃⟩⟩
  obtain ⟨h₁, h₂, h₃⟩ := hloop (List.range' (i + 1) (keys.length - (i + 1))) i (by
    intro j hj
    rw [List.mem_range'_1] at hj
    omega) (le_refl i)
  refine ⟨h₁, ?_⟩
  intro j hij hj
  rcases hij.eq_or_lt with rfl | hlt
  · exact h₂
  · refine h₃ j ?_
    rw [List.mem_range'_1]
    omega

/-- No priority before `i` is below one that comes later. -/
def SortedBefore (keys : List ℤ) (i : ℕ) : Prop :=
  ∀ p q, p < i → p < q → q < keys.length → keys.getD q 0 ≤ keys.getD p 0

/-- A round puts the greatest of what is left in its place. -/
theorem SortedBefore.round {keys : List ℤ} {i : ℕ} (h : SortedBefore keys i)
    (hi : i < keys.length) : SortedBefore (swap keys i (maxIdx keys i)) (i + 1) := by
  obtain ⟨hle, hmax⟩ := maxIdx_spec hi
  obtain ⟨-, hlt⟩ := findMax_ofList hi
  intro p q hp hpq hq
  rw [length_swap] at hq
  rw [getD_swap hi hlt, getD_swap hi hlt]
  rcases Nat.lt_succ_iff_lt_or_eq.mp hp with hp | rfl
  · -- what stands before `i` stays, and is not below what changes places
    rw [if_neg (by omega : ¬ p = maxIdx keys i), if_neg (by omega : ¬ p = i)]
    apply h p _ hp
    · split_ifs <;> omega
    · split_ifs <;> omega
  · have hself : (if p = maxIdx keys p then p else if p = p then maxIdx keys p else p) =
        maxIdx keys p := by
      rw [if_pos rfl]
      split_ifs with heq
      · exact heq
      · rfl
    rw [hself]
    apply hmax
    · split_ifs <;> omega
    · split_ifs <;> omega

/-- What the rounds keep: the priorities go along with the positions. -/
theorem rounds_sorted (f : ℕ → ℤ) (n : ℕ) {positions : List ℕ}
    (hn : n ≤ positions.length) :
    (((List.range n).foldl sortRound (positions, positions.map f)).2 =
      ((List.range n).foldl sortRound (positions, positions.map f)).1.map f) ∧
    ((List.range n).foldl sortRound (positions, positions.map f)).2.length = positions.length ∧
    SortedBefore ((List.range n).foldl sortRound (positions, positions.map f)).2 n := by
  induction n with
  | zero => exact ⟨rfl, List.length_map f, fun p q hp => absurd hp (Nat.not_lt_zero p)⟩
  | succ n ih =>
      obtain ⟨hmap, hlen, hsorted⟩ := ih (by omega)
      rw [List.range_succ, List.foldl_append, List.foldl_cons, List.foldl_nil, sortRound]
      refine ⟨?_, ?_, ?_⟩
      · rw [map_swap, ← hmap]
      · rw [length_swap, hlen]
      · exact hsorted.round (by omega)

/-- **In order of priority**: none is below one that comes later. -/
theorem factorOrder_pairwise (factors : List AuthFactor) :
    ((factorOrder factors).map fun i =>
      (factors.map AuthFactor.priority).getD i 0).Pairwise (· ≥ ·) := by
  have hkeys : (List.range factors.length).map
      (fun i => (factors.map AuthFactor.priority).getD i 0) =
        factors.map AuthFactor.priority := by
    apply List.ext_getElem
    · simp
    · intro i h₁ h₂
      simp at h₂
      simp [h₂]
  have hrounds : factors.length - 1 ≤ (List.range factors.length).length := by simp
  obtain ⟨hmap, hlen, hsorted⟩ := rounds_sorted
    (fun i => (factors.map AuthFactor.priority).getD i 0) (factors.length - 1) hrounds
  rw [hkeys] at hmap hlen hsorted
  rw [factorOrder, ← hmap, List.pairwise_iff_getElem]
  intro p q hp hq hpq
  rw [hlen, List.length_range] at hp hq
  have hle := hsorted p q (by omega) hpq (by rw [hlen, List.length_range]; omega)
  rwa [List.getD_eq_getElem, List.getD_eq_getElem] at hle

/-- **The factors of a session**, whatever the message has and whatever the session had before:
every access is within its array, the factors stand in the array as they came, and `factorOrder`
has each position once, in order of priority. -/
theorem factors_in_order (factors : Option (Cells AuthFactor)) (data : List AuthFactor) :
    ∃ r order, resolveAuthctrlFactorsArrays factors data = some r ∧ r.factorSize = data.length ∧
      (∀ i (hi : i < data.length), (r.factors.bind fun fs => fs.read i) = some data[i]) ∧
      r.factorOrder = .ofList order ∧ order.Perm (List.range data.length) ∧
      (order.map fun i => (data.map AuthFactor.priority).getD i 0).Pairwise (· ≥ ·) := by
  refine ⟨_, factorOrder data, resolveAuthctrlFactorsArrays_eq factors data, rfl, ?_, rfl,
    factorOrder_perm data, factorOrder_pairwise data⟩
  intro i hi
  have hne : data ≠ [] := by
    rintro rfl
    exact absurd hi (Nat.not_lt_zero i)
  rw [if_neg hne, Option.bind_some, Cells.read_ofList_of_lt hi]

end LingmoAuthenticate.PamModule
