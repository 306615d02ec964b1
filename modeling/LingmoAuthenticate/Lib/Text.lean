import Mathlib.Data.List.DropRight
import Mathlib.Tactic.Lemma
import LingmoAuthenticate.Lib.Clock

/-!
# Texts of numbers and of instants

Lists of characters, as they are written by the standard libraries of C and Go.

* `decimal n`: an integer in decimal; `length_decimal_le` and `length_decimal_mono` bound its
  length.
* `printf`: a format, in bytes, with its arguments.
* `rfc3339Nano offset t`: an instant with nanoseconds and the offset of a zone. `rfc3339Nano_length`
  is the length of the longest one.
-/

namespace LingmoAuthenticate.Lib

/-! ## Integers -/

/-- An integer in decimal, with a sign if it is negative. -/
def decimal (n : ℤ) : List Char :=
  if n < 0 then '-' :: Nat.toDigits 10 n.natAbs else Nat.toDigits 10 n.natAbs

/-- A number that is not negative has its digits alone. -/
theorem decimal_of_nonneg {n : ℤ} (h : 0 ≤ n) : decimal n = Nat.toDigits 10 n.natAbs :=
  if_neg (not_lt.mpr h)

/-- The length of a number that is not negative. -/
theorem length_decimal_le_iff {n : ℤ} {k : ℕ} (h : 0 ≤ n) (hk : 0 < k) :
    (decimal n).length ≤ k ↔ n < 10 ^ k := by
  rw [decimal_of_nonneg h, Nat.length_toDigits_le_iff (by decide) hk]
  have hcast : n = (n.natAbs : ℤ) := (Int.natAbs_of_nonneg h).symm
  constructor
  · intro hlt
    rw [hcast]
    exact_mod_cast hlt
  · intro hlt
    rw [hcast] at hlt
    exact_mod_cast hlt

/-- A number is not empty. -/
theorem length_decimal_pos (n : ℤ) : 0 < (decimal n).length := by
  unfold decimal
  split_ifs
  · exact Nat.zero_lt_succ _
  · exact Nat.length_toDigits_pos

/-- A larger number is not shorter. -/
theorem length_decimal_mono {m n : ℤ} (h : 0 ≤ m) (hmn : m ≤ n) :
    (decimal m).length ≤ (decimal n).length := by
  rw [length_decimal_le_iff h (length_decimal_pos n)]
  have hn : n < 10 ^ (decimal n).length :=
    (length_decimal_le_iff (h.trans hmn) (length_decimal_pos n)).mp le_rfl
  exact hmn.trans_lt hn

/-- A count of 64 bits has 19 digits. -/
theorem length_decimal_le {n : ℤ} (h : 0 ≤ n) (hn : n < 2 ^ 63) : (decimal n).length ≤ 19 := by
  rw [length_decimal_le_iff h (by decide)]
  omega

/-! ## Formats -/

/-- An argument of a format: a text in bytes, or an integer. -/
inductive FormatArg where
  | str (s : List UInt8)
  | int (n : ℤ)

/-- `printf`, of a format that has `%s` and `%d` only, in the order of its arguments. -/
def printf : List UInt8 → List FormatArg → List UInt8
  | 37 :: 100 :: format, .int n :: args =>
      (decimal n).map (fun c => UInt8.ofNat c.toNat) ++ printf format args
  | 37 :: 115 :: format, .str s :: args => s ++ printf format args
  | c :: format, args => c :: printf format args
  | [], _ => []

/-! ## Instants -/

/-- The last decimal digit. -/
def lastDigit (n : ℤ) : Char := Nat.digitChar (n % 10).toNat

/-- A number of two digits. -/
def pad2 (n : ℤ) : List Char := [lastDigit (n / 10), lastDigit n]

/-- A number of four digits. -/
def pad4 (n : ℤ) : List Char := pad2 (n / 100) ++ pad2 n

/-- Year, month and day of the Gregorian calendar, from the days since 1970-01-01. The years are
counted from March on, so that the leap day is the last one. -/
def civil (days : ℤ) : ℤ × ℤ × ℤ :=
  let z := days + 719468
  let era := z / 146097
  let dayOfEra := z % 146097
  let yearOfEra := (dayOfEra - dayOfEra / 1460 + dayOfEra / 36524 - dayOfEra / 146096) / 365
  let dayOfYear := dayOfEra - (365 * yearOfEra + yearOfEra / 4 - yearOfEra / 100)
  let march := (5 * dayOfYear + 2) / 153
  let day := dayOfYear - (153 * march + 2) / 5 + 1
  let month := if march < 10 then march + 3 else march - 9
  (yearOfEra + era * 400 + if month ≤ 2 then 1 else 0, month, day)

example : civil (-719162) = (1, 1, 1) := by decide
example : civil 19782 = (2024, 2, 29) := by decide

/-- The decimals of a second that are not trailing zeros. -/
def fraction (nanos : ℤ) : List Char :=
  let digits := pad2 (nanos / 10000000) ++ pad2 (nanos / 100000) ++ pad2 (nanos / 1000) ++
    pad2 (nanos / 10) ++ [lastDigit nanos]
  if nanos = 0 then [] else '.' :: digits.rdropWhile (· = '0')

/-- The offset of a zone from UTC, in seconds. -/
def zone (offset : ℤ) : List Char :=
  if offset = 0 then ['Z']
  else (if offset ≤ -60 then '-' else '+') ::
    (pad2 (offset.natAbs / 3600) ++ [':'] ++ pad2 (offset.natAbs / 60 % 60))

/-- The date and the time of day. -/
def dateTime (seconds : ℤ) : List Char :=
  let (year, month, day) := civil (seconds / 86400)
  let time := seconds % 86400
  pad4 year ++ ['-'] ++ pad2 month ++ ['-'] ++ pad2 day ++ ['T'] ++ pad2 (time / 3600) ++ [':'] ++
    pad2 (time / 60 % 60) ++ [':'] ++ pad2 (time % 60)

/-- An instant, given in nanoseconds, in a zone; `none` if its year has not four digits. -/
def rfc3339Nano (offset t : ℤ) : Option (List Char) :=
  let seconds := t / second + offset
  let (year, _, _) := civil (seconds / 86400)
  if 0 ≤ year ∧ year ≤ 9999 then
    some (dateTime seconds ++ fraction (t % second) ++ zone offset)
  else none

example : rfc3339Nano 0 Time.zero = some "0001-01-01T00:00:00Z".toList := by decide
example : rfc3339Nano 28800 1 = some "1970-01-01T08:00:00.000000001+08:00".toList := by decide

@[simp] theorem length_pad2 (n : ℤ) : (pad2 n).length = 2 := rfl

@[simp] theorem length_pad4 (n : ℤ) : (pad4 n).length = 4 := rfl

theorem length_dateTime (seconds : ℤ) : (dateTime seconds).length = 19 := by
  simp [dateTime]

theorem length_fraction (nanos : ℤ) : (fraction nanos).length ≤ 10 := by
  unfold fraction
  dsimp only
  split_ifs
  · exact Nat.zero_le 10
  · rw [List.length_cons]
    exact Nat.succ_le_succ (List.rdropWhile_prefix _ _).length_le

theorem length_zone (offset : ℤ) : (zone offset).length ≤ 6 := by
  unfold zone
  split_ifs
  · decide
  · exact le_rfl
  · exact le_rfl

/-- **The longest instant** has a fraction of nine digits and an offset. -/
theorem rfc3339Nano_length {offset t : ℤ} {text : List Char}
    (h : rfc3339Nano offset t = some text) : text.length ≤ 35 := by
  unfold rfc3339Nano at h
  dsimp only at h
  split_ifs at h
  cases h
  have hfraction := length_fraction (t % second)
  have hzone := length_zone offset
  rw [List.length_append, List.length_append, length_dateTime]
  omega

end LingmoAuthenticate.Lib
