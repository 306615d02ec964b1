import Mathlib.Algebra.Group.Int.Defs
import Mathlib.Data.List.Basic
import Mathlib.Data.List.TakeWhile
import Mathlib.Tactic.Lemma

/-!
# Strings of C

A string of C is a text without a NUL, and an array of `char` has one if there is a NUL in it. What
C leaves undefined is `none`: a read past the end of an array, and a write past it.

* `CString`: the text cannot have a NUL.
* `CharArray.text`, `put`, `strncpy`, `putNul`; `text_put`: when a string that is written
  without its NUL is read back.
* `lines`, and `readLines`, a loop of `fgets`; `readLines_fit`: when all that it reads fits an array.
-/

namespace LingmoAuthenticate.Lib

/-- A text without a NUL. -/
structure CString where
  bytes : List UInt8
  noNul : 0 ∉ bytes
  deriving DecidableEq

namespace CString

/-- The part before the first NUL. -/
def ofBytes (s : List UInt8) : CString :=
  ⟨s.takeWhile (· ≠ 0), fun h => by simpa using List.mem_takeWhile_imp h⟩

@[simp] theorem bytes_ofBytes (s : List UInt8) : (ofBytes s).bytes = s.takeWhile (· ≠ 0) := rfl

theorem ext_bytes {s t : CString} (h : s.bytes = t.bytes) : s = t := by
  cases s
  cases t
  cases h
  rfl

theorem takeWhile_bytes (s : CString) : s.bytes.takeWhile (· ≠ 0) = s.bytes := by
  rw [List.takeWhile_eq_self_iff]
  intro b hb
  exact decide_eq_true fun h : b = 0 => s.noNul (h ▸ hb)

/-- `strchr`, as the distance from the beginning. -/
def strchr (s : CString) (c : UInt8) : Option ℕ := s.bytes.idxOf? c

/-- The string from a position on. -/
def drop (s : CString) (n : ℕ) : CString :=
  ⟨s.bytes.drop n, fun h => s.noNul (List.mem_of_mem_drop h)⟩

end CString

/-- The bytes of an array of `char`. -/
abbrev CharArray := List UInt8

namespace CharArray

/-- The string in an array. -/
def text (a : CharArray) : Option CString := if 0 ∈ a then some (.ofBytes a) else none

/-- Bytes are written over the beginning of an array. -/
def put (a : CharArray) (bytes : List UInt8) : Option CharArray :=
  if bytes.length ≤ a.length then some (bytes ++ a.drop bytes.length) else none

/-- `strncpy`, which fills up what is left of the `n` bytes. -/
def strncpy (a : CharArray) (src : CString) (n : ℕ) : Option CharArray :=
  a.put (src.bytes.take n ++ List.replicate (n - src.bytes.length) 0)

/-- A NUL is written at a position. -/
def putNul (a : CharArray) (i : ℕ) : Option CharArray :=
  if i < a.length then some (a.set i 0) else none

theorem getElem?_put {a a' : CharArray} {bytes : List UInt8} (h : a.put bytes = some a') (n : ℕ) :
    a'[n]? = if n < bytes.length then bytes[n]? else a[n]? := by
  unfold put at h
  split_ifs at h with hfit
  cases h
  split_ifs with hn
  · exact List.getElem?_append_left hn
  · rw [List.getElem?_append_right (by omega), List.getElem?_drop]
    congr 1
    omega

theorem length_put {a a' : CharArray} {bytes : List UInt8} (h : a.put bytes = some a') :
    a'.length = a.length := by
  unfold put at h
  split_ifs at h with hfit
  cases h
  rw [List.length_append, List.length_drop]
  omega

/-- What `strncpy` writes: the string, and NULs up to `n`. -/
theorem strncpy_spec {a : CharArray} {n : ℕ} (h : n ≤ a.length) (src : CString) :
    ∃ a', a.strncpy src n = some a' ∧ a'.length = a.length ∧
      ∀ i, a'[i]? = if i < n then some (src.bytes.getD i 0) else a[i]? := by
  have hlen : (src.bytes.take n ++ List.replicate (n - src.bytes.length) 0).length = n := by
    rw [List.length_append, List.length_take, List.length_replicate]
    omega
  have hput : ∃ a', a.strncpy src n = some a' :=
    ⟨_, by rw [strncpy, put, if_pos (by omega)]⟩
  obtain ⟨a', hput⟩ := hput
  refine ⟨a', hput, length_put hput, fun i => ?_⟩
  rw [getElem?_put hput, hlen]
  split_ifs with hi
  · rw [List.getD_eq_getElem?_getD]
    by_cases hsrc : i < src.bytes.length
    · rw [List.getElem?_append_left (by rw [List.length_take]; omega), List.getElem?_take,
        if_pos hi, List.getElem?_eq_getElem hsrc]
      rfl
    · have htake : src.bytes.take n = src.bytes := List.take_of_length_le (by omega)
      rw [htake, List.getElem?_append_right (by omega), List.getElem?_replicate,
        if_pos (by omega), List.getElem?_eq_none (by omega), Option.getD_none]
  · rfl

/-- An array with a string in it. -/
theorem text_eq_some {a : CharArray} {s : CString} :
    a.text = some s ↔ ∃ rest, a = s.bytes ++ 0 :: rest := by
  unfold text
  constructor
  · intro h
    split_ifs at h with hnul
    cases h
    have hrest : a.dropWhile (· ≠ 0) ≠ [] := by
      rw [Ne, List.dropWhile_eq_nil_iff]
      exact fun hall => by simpa using hall 0 hnul
    obtain ⟨b, rest, hdrop⟩ := List.exists_cons_of_ne_nil hrest
    have hb : b = 0 := by
      have hhead := List.head?_dropWhile_not (fun b : UInt8 => decide (b ≠ 0)) a
      rw [hdrop] at hhead
      simpa using hhead
    subst hb
    refine ⟨rest, ?_⟩
    rw [CString.bytes_ofBytes, ← hdrop, List.takeWhile_append_dropWhile]
  · rintro ⟨rest, rfl⟩
    rw [if_pos (by simp), Option.some.injEq]
    apply CString.ext_bytes
    rw [CString.bytes_ofBytes, List.takeWhile_append, s.takeWhile_bytes, if_pos rfl]
    simp

/-- **A string is written without its NUL**: it is read back exactly if one stands behind it. -/
theorem text_put {a : CharArray} {s : CString} :
    (a.put s.bytes).bind text = some s ↔ a[s.bytes.length]? = some 0 := by
  rw [List.getElem?_eq_some_iff, put]
  constructor
  · intro h
    split_ifs at h with hfit
    · obtain ⟨rest, hrest⟩ := text_eq_some.mp h
      have hdrop := List.append_cancel_left hrest
      have hlt : s.bytes.length < a.length := by
        have hlen := congrArg List.length hdrop
        rw [List.length_drop, List.length_cons] at hlen
        omega
      rw [List.drop_eq_getElem_cons hlt, List.cons.injEq] at hdrop
      exact ⟨hlt, hdrop.1⟩
    · cases h
  · rintro ⟨hlt, hnul⟩
    rw [if_pos hlt.le, Option.bind_some, List.drop_eq_getElem_cons hlt, hnul]
    exact text_eq_some.mpr ⟨_, rfl⟩

/-- What is read back begins with the string that was written. -/
theorem prefix_of_text_put {a : CharArray} {s t : CString} (h : (a.put s.bytes).bind text = some t) :
    s.bytes <+: t.bytes := by
  obtain ⟨a', hput, htext⟩ := Option.bind_eq_some_iff.mp h
  unfold put at hput
  split_ifs at hput
  obtain rfl := Option.some.inj hput
  obtain ⟨rest, hrest⟩ := text_eq_some.mp htext
  have hs : s.bytes <+: t.bytes ++ 0 :: rest := ⟨_, hrest⟩
  rcases le_or_gt s.bytes.length t.bytes.length with hle | hlt
  · exact List.prefix_of_prefix_length_le hs (List.prefix_append _ _) hle
  · -- otherwise the NUL after `t` is in `s`
    have hnul : t.bytes ++ [0] <+: t.bytes ++ 0 :: rest := ⟨rest, by simp⟩
    have hlen : (t.bytes ++ [0]).length ≤ s.bytes.length := by
      rw [List.length_append, List.length_singleton]
      exact hlt
    have hin := List.prefix_of_prefix_length_le hnul hs hlen
    exact absurd (hin.subset (by simp)) s.noNul

end CharArray

/-! ## Numbers -/

/-- `isspace`. -/
def isSpace (b : UInt8) : Bool := b = 32 ∨ 9 ≤ b ∧ b ≤ 13

/-- `isdigit`. -/
def isDigit (b : UInt8) : Bool := 48 ≤ b ∧ b ≤ 57

/-- The sign of a number, and what follows it. -/
def sign : List UInt8 → ℤ × List UInt8
  | 45 :: s => (-1, s)
  | 43 :: s => (1, s)
  | s => (1, s)

/-- `atoi`: the number, in the range of `long`, of which 32 bits are left. -/
def atoi (s : CString) : ℤ :=
  let number := sign (s.bytes.dropWhile isSpace)
  let n : ℤ := (number.2.takeWhile isDigit).foldl (fun n b => 10 * n + (b.toNat - 48)) 0
  (BitVec.ofInt 32 (max (-2 ^ 63) (min (number.1 * n) (2 ^ 63 - 1)))).toInt

/-! ## Lines -/

/-- The lines of a file, each with its newline, but for one that the file ends in. -/
def lines : List UInt8 → List (List UInt8)
  | [] => []
  | b :: file =>
      if b = 10 then [b] :: lines file
      else
        match lines file with
        | [] => [[b]]
        | line :: rest => (b :: line) :: rest

/-- Up to `limit` bytes of a file, but not past a newline, and what is left of it. -/
def readLine : ℕ → List UInt8 → List UInt8 × List UInt8
  | 0, file => ([], file)
  | _ + 1, [] => ([], [])
  | limit + 1, b :: file =>
      if b = 10 then ([b], file) else (b :: (readLine limit file).1, (readLine limit file).2)

/-- What a loop of `fgets` reads, up to `limit` bytes at a time, until nothing is left; `fuel` is
more than the rounds of it. -/
def readLines (limit : ℕ) : ℕ → List UInt8 → List (List UInt8)
  | 0, _ => []
  | fuel + 1, file =>
      match readLine limit file with
      | ([], _) => []
      | (line, rest) => line :: readLines limit fuel rest

@[simp] theorem readLine_nil (limit : ℕ) : readLine limit [] = ([], []) := by
  cases limit with
  | zero => rfl
  | succ limit => rfl

theorem lines_ne_nil {b : UInt8} {file : List UInt8} : lines (b :: file) ≠ [] := by
  unfold lines
  split_ifs
  · exact List.cons_ne_nil _ _
  · split
    · exact List.cons_ne_nil _ _
    · exact List.cons_ne_nil _ _

theorem ne_nil_of_mem_lines {file line : List UInt8} (h : line ∈ lines file) : line ≠ [] := by
  induction file generalizing line with
  | nil => cases h
  | cons b file ih =>
      unfold lines at h
      split_ifs at h with hb
      · rcases List.mem_cons.mp h with rfl | h
        · exact List.cons_ne_nil _ _
        · exact ih h
      · rcases hfile : lines file with _ | ⟨next, rest⟩
        · rw [hfile, List.mem_singleton] at h
          rw [h]
          exact List.cons_ne_nil _ _
        · rw [hfile] at h ih
          rcases List.mem_cons.mp h with rfl | h
          · exact List.cons_ne_nil _ _
          · exact ih (List.mem_cons_of_mem _ h)

/-- **What is read of a line**: its first bytes, and all of it if it is short enough. -/
theorem readLine_of_lines {file line : List UInt8} {rest : List (List UInt8)} {limit : ℕ}
    (h : lines file = line :: rest) :
    (readLine limit file).1 = line.take limit ∧
      (line.length ≤ limit → lines (readLine limit file).2 = rest) := by
  have hne : line ≠ [] := ne_nil_of_mem_lines (by rw [h]; exact List.mem_cons_self)
  induction file generalizing limit line with
  | nil => cases h
  | cons b file ih =>
      rcases limit with _ | limit
      · exact ⟨rfl, fun hshort => absurd (List.length_eq_zero_iff.mp (by omega)) hne⟩
      · rw [readLine]
        unfold lines at h
        split_ifs at h ⊢ with hb
        · rw [List.cons.injEq] at h
          obtain ⟨rfl, rfl⟩ := h
          exact ⟨by simp, fun _ => rfl⟩
        · rcases hfile : lines file with _ | ⟨next, others⟩
          · rw [hfile, List.cons.injEq] at h
            obtain ⟨rfl, rfl⟩ := h
            rcases file with _ | ⟨c, file⟩
            · simp
              rfl
            · exact absurd hfile lines_ne_nil
          · rw [hfile, List.cons.injEq] at h
            obtain ⟨rfl, rfl⟩ := h
            have hnext : next ≠ [] :=
              ne_nil_of_mem_lines (by rw [hfile]; exact List.mem_cons_self)
            have hfirst : (readLine limit file).1 = next.take limit := (ih hfile hnext).1
            refine ⟨by rw [hfirst, List.take_succ_cons], fun hshort => (ih hfile hnext).2 ?_⟩
            rw [List.length_cons] at hshort
            omega

theorem length_readLine (limit : ℕ) (file : List UInt8) :
    (readLine limit file).1.length + (readLine limit file).2.length = file.length ∧
      (readLine limit file).1.length ≤ limit := by
  induction file generalizing limit with
  | nil => simp
  | cons b file ih =>
      rcases limit with _ | limit
      · simp [readLine]
      · rw [readLine]
        split_ifs
        · simp
          omega
        · have := ih limit
          simp only [List.length_cons]
          omega

theorem readLines_succ {limit fuel : ℕ} {file : List UInt8} (h : (readLine limit file).1 ≠ []) :
    readLines limit (fuel + 1) file =
      (readLine limit file).1 :: readLines limit fuel (readLine limit file).2 := by
  rcases hread : readLine limit file with ⟨line, rest⟩
  rw [hread] at h
  rcases line with _ | ⟨b, line⟩
  · exact absurd rfl h
  · rw [readLines, hread]

/-- **What a loop of `fgets` reads fits an array** of `size` bytes exactly if it never reads more, or
each line fits. -/
theorem readLines_fit {limit size fuel : ℕ} (hlimit : 0 < limit) {file : List UInt8}
    (hfuel : file.length < fuel) :
    (∀ chunk ∈ readLines limit fuel file, chunk.length < size) ↔
      limit < size ∨ ∀ line ∈ lines file, line.length < size := by
  induction fuel generalizing file with
  | zero => omega
  | succ fuel ih =>
      rcases hlines : lines file with _ | ⟨line, rest⟩
      · rcases file with _ | ⟨b, file⟩
        · simp [readLines]
        · exact absurd hlines lines_ne_nil
      · have hne : line ≠ [] := ne_nil_of_mem_lines (by rw [hlines]; exact List.mem_cons_self)
        have hpos : 0 < line.length := List.length_pos_iff.mpr hne
        have hfirst : (readLine limit file).1 = line.take limit := (readLine_of_lines hlines).1
        have hrest : line.length ≤ limit → lines (readLine limit file).2 = rest :=
          (readLine_of_lines hlines).2
        obtain ⟨htotal, hle⟩ := length_readLine limit file
        have hchunk : (readLine limit file).1.length = min limit line.length := by
          rw [hfirst, List.length_take]
        rw [readLines_succ (List.length_pos_iff.mp (by omega)), List.forall_mem_cons,
          List.forall_mem_cons, ih (by omega)]
        by_cases hroom : limit < size
        · simp only [hroom, true_or, and_true, iff_true]
          omega
        · by_cases hshort : line.length ≤ limit
          · rw [hrest hshort, hchunk, min_eq_right hshort]
            simp only [hroom, false_or]
          · simp only [hroom, false_or]
            constructor
            · intro h
              omega
            · intro h
              omega

end LingmoAuthenticate.Lib
