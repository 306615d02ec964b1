import Mathlib.Algebra.Order.Ring.Int
import Mathlib.Tactic.Lemma

/-!
# Instants and 64-bit nanosecond arithmetic

* `int64 x` is the value of the mathematical integer `x` after Go's signed 64-bit wrap-around;
  `int64_eq_self` says when nothing wraps.
* An instant is its number of nanoseconds from the Unix epoch. Go's `time.Time` reaches far beyond
  64-bit nanoseconds, so an instant is an unbounded integer, and `Time.unixNano` is the wrapped
  number that `UnixNano` returns.
* `Time.zero` is the zero `time.Time`, the start of year 1. It lies outside the 64-bit nanosecond
  range; `unixNano_zero` is the number it wraps to (an instant of the year 1754).
-/

namespace LingmoAuthenticate.Lib

/-- Signed 64-bit wrap-around. -/
def int64 (x : ℤ) : ℤ := x.bmod (2 ^ 64)

/-- `x` is in the range of a signed 64-bit integer. -/
def FitsInt64 (x : ℤ) : Prop := -9223372036854775808 ≤ x ∧ x ≤ 9223372036854775807

instance (x : ℤ) : Decidable (FitsInt64 x) := inferInstanceAs (Decidable (_ ∧ _))

/-- The wrap, spelled out: the residue modulo `2^64`, moved into the signed range. -/
theorem int64_eq (x : ℤ) :
    int64 x = if x % 18446744073709551616 < 9223372036854775808 then x % 18446744073709551616
      else x % 18446744073709551616 - 18446744073709551616 := by
  unfold int64
  rw [Int.bmod_def]
  rfl

/-- A number in range is unchanged by the wrap. -/
theorem int64_eq_self {x : ℤ} (h : FitsInt64 x) : int64 x = x := by
  obtain ⟨h₁, h₂⟩ := h
  rw [int64_eq]
  split <;> omega

/-! ## Instants -/

/-- Nanoseconds in a second (`time.Second`). -/
def second : ℤ := 1000000000

/-- The zero `time.Time`: 0001-01-01T00:00:00Z, 62135596800 seconds before the Unix epoch. -/
def Time.zero : ℤ := -62135596800 * second

/-- `UnixNano`: the nanoseconds from the Unix epoch, wrapped to 64 bits. -/
def Time.unixNano (t : ℤ) : ℤ := int64 t

/-- `Add` of a duration in nanoseconds. -/
def Time.add (t d : ℤ) : ℤ := t + d

/-- The zero time's nanoseconds wrap to an instant of the year 1754. -/
theorem unixNano_zero : Time.unixNano Time.zero = -6795364578871345152 := by decide

end LingmoAuthenticate.Lib
