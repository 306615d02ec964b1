import Mathlib.Algebra.Order.Group.Int
import Mathlib.Tactic.IntervalCases
import LingmoAuthenticate.Lib.JsonText

/-!
# Reading an instant

What the C library makes of a date and a time of day, against the texts of `Text`.

* `daysOf` is `civil` the other way round; `daysOf_civil`.
* `strptime` reads `%FT%TZ`, field by field, and leaves what it has not come to as it was.
* `mktime` takes the fields to an instant of a zone with a fixed offset.
* `mktime_strptime`: an instant that was written with an offset is read to the second.
* `minutesUntil` rounds a wait up; `minutesUntil_enough` and `minutesUntil_tight`: so many minutes
  are enough, and one less is not.
* `minutesTo_rfc3339Nano`: the minutes to an instant that was written are those to its second, moved
  by the difference of the two zones.
-/

namespace LingmoAuthenticate.Lib

/-! ## The calendar -/

/-- The days from 1970-01-01 to a date of the Gregorian calendar. -/
def daysOf (year month day : ℤ) : ℤ :=
  let marchYear := if month ≤ 2 then year - 1 else year
  let march := if month ≤ 2 then month + 9 else month - 3
  let era := marchYear / 400
  let yearOfEra := marchYear % 400
  let dayOfYear := (153 * march + 2) / 5 + day - 1
  era * 146097 + (yearOfEra * 365 + yearOfEra / 4 - yearOfEra / 100 + dayOfYear) - 719468

example : daysOf 2024 2 29 = 19782 := by decide

/-- The year of a day within the 400 years of an era, and the day within that year. -/
theorem yearOfEra_bounds {dayOfEra : ℤ} (h₀ : 0 ≤ dayOfEra) (h₁ : dayOfEra < 146097) :
    let year := (dayOfEra - dayOfEra / 1460 + dayOfEra / 36524 - dayOfEra / 146096) / 365
    (0 ≤ year ∧ year < 400) ∧ 0 ≤ dayOfEra - (365 * year + year / 4 - year / 100) ∧
      dayOfEra - (365 * year + year / 4 - year / 100) ≤ 365 := by
  intro year
  have hyear : year =
    (dayOfEra - dayOfEra / 1460 + dayOfEra / 36524 - dayOfEra / 146096) / 365 := rfl
  clear_value year
  refine ⟨by omega, ?_⟩
  -- the century is known from the day, but for the last day of the era
  obtain ⟨century, hcentury⟩ : ∃ century, century = dayOfEra / 36524 := ⟨_, rfl⟩
  rw [← hcentury] at hyear
  have hlow : 0 ≤ century := by omega
  have hhigh : century ≤ 4 := by omega
  have hlast : dayOfEra / 146096 = 0 ∨ dayOfEra / 146096 = 1 := by omega
  have hyears : year / 100 = century - dayOfEra / 146096 := by
    interval_cases century
    all_goals omega
  rw [hyears]
  have hcycle : year % 4 = 0 ∨ year % 4 = 1 ∨ year % 4 = 2 ∨ year % 4 = 3 := by omega
  rcases hcycle with hcycle | hcycle | hcycle | hcycle
  all_goals
    interval_cases century
    all_goals omega

/-- The month and the day of a date. -/
theorem civil_bounds (days : ℤ) :
    1 ≤ (civil days).2.1 ∧ (civil days).2.1 ≤ 12 ∧ 1 ≤ (civil days).2.2 ∧
      (civil days).2.2 ≤ 31 := by
  obtain ⟨-, h₀, h₁⟩ := yearOfEra_bounds
    (Int.emod_nonneg (days + 719468) (by decide : (146097 : ℤ) ≠ 0))
    (Int.emod_lt_of_pos (days + 719468) (by decide))
  simp only [civil]
  generalize (days + 719468) % 146097 - _ = dayOfYear at h₀ h₁ ⊢
  split_ifs
  · omega
  · omega

/-- The date of a day of a year that begins in March. -/
theorem daysOf_march {era year dayOfYear : ℤ} (hy₀ : 0 ≤ year) (hy₁ : year < 400)
    (h₀ : 0 ≤ dayOfYear) (h₁ : dayOfYear ≤ 365) :
    let march := (5 * dayOfYear + 2) / 153
    let month := if march < 10 then march + 3 else march - 9
    daysOf (year + era * 400 + if month ≤ 2 then 1 else 0) month
        (dayOfYear - (153 * march + 2) / 5 + 1) =
      era * 146097 + (year * 365 + year / 4 - year / 100 + dayOfYear) - 719468 := by
  intro march month
  have hera : (year + era * 400) / 400 = era ∧ (year + era * 400) % 400 = year := by omega
  have hmarch : march ≤ 11 := by omega
  have hback : (if month ≤ 2 then month + 9 else month - 3) = march ∧
      (if month ≤ 2 then year + era * 400 + (if month ≤ 2 then 1 else 0) - 1
        else year + era * 400 + (if month ≤ 2 then 1 else 0)) = year + era * 400 := by
    have hmonth : month = march + 3 ∧ ¬ month ≤ 2 ∨ month = march - 9 ∧ month ≤ 2 := by
      by_cases hlt : march < 10
      · exact .inl ⟨if_pos hlt, by rw [show month = march + 3 from if_pos hlt]; omega⟩
      · exact .inr ⟨if_neg hlt, by rw [show month = march - 9 from if_neg hlt]; omega⟩
    rcases hmonth with ⟨heq, hgt⟩ | ⟨heq, hle⟩
    · rw [if_neg hgt, if_neg hgt, if_neg hgt]
      omega
    · rw [if_pos hle, if_pos hle, if_pos hle]
      omega
  simp only [daysOf]
  rw [hback.1, hback.2, hera.1, hera.2]
  omega

/-- **A date is that of its day.** -/
theorem daysOf_civil (days : ℤ) :
    daysOf (civil days).1 (civil days).2.1 (civil days).2.2 = days := by
  obtain ⟨⟨hy₀, hy₁⟩, h₀, h₁⟩ := yearOfEra_bounds
    (Int.emod_nonneg (days + 719468) (by decide : (146097 : ℤ) ≠ 0))
    (Int.emod_lt_of_pos (days + 719468) (by decide))
  refine (daysOf_march hy₀ hy₁ h₀ h₁).trans ?_
  have hdays := Int.emod_add_mul_ediv (days + 719468) 146097
  omega

/-! ## Fields of a date -/

/-- Source: `time.h`, `struct tm`, with the year in full and the months counted from one. -/
structure Tm where
  year : ℤ
  mon : ℤ
  mday : ℤ
  hour : ℤ
  min : ℤ
  sec : ℤ
  deriving DecidableEq, Repr

/-- A `struct tm` of zeros. -/
def Tm.zero : Tm := ⟨1900, 1, 0, 0, 0, 0⟩

/-- The seconds since the epoch, where the zone is ahead of UTC by so many seconds. -/
def mktime (offset : ℤ) (tm : Tm) : ℤ :=
  daysOf tm.year tm.mon tm.mday * 86400 + tm.hour * 3600 + tm.min * 60 + tm.sec - offset

/-- The value of a digit. -/
def digitValue (c : Char) : ℤ := c.toNat - 48

/-- More digits of a number, up to so many, and while the number may stay within its bound. -/
def readDigits (hi : ℤ) : ℕ → ℤ → List Char → ℤ × List Char
  | n + 1, val, c :: s =>
      if c.isDigit ∧ val * 10 ≤ hi then readDigits hi n (val * 10 + digitValue c) s
      else (val, c :: s)
  | _, val, s => (val, s)

/-- A number of at most so many digits, within its bounds, after any spaces. -/
def getNumber (lo hi : ℤ) (digits : ℕ) (s : List Char) : Option (ℤ × List Char) :=
  match s.dropWhile Char.isWhitespace with
  | [] => none
  | c :: s =>
      if c.isDigit then
        let r := readDigits hi (digits - 1) (digitValue c) s
        if lo ≤ r.1 ∧ r.1 ≤ hi then some r else none
      else none

/-- A field of a time, for reading it: the least and the greatest value, how many digits it has at
most, how it is set, and the character of the format that comes after it. -/
structure TmField where
  lo : ℤ
  hi : ℤ
  digits : ℕ
  set : Tm → ℤ → Tm
  next : Char

/-- The fields of `%FT%TZ`. -/
def formatFTZ : List TmField :=
  [⟨0, 9999, 4, fun tm v => { tm with year := v }, '-'⟩,
    ⟨1, 12, 2, fun tm v => { tm with mon := v }, '-'⟩,
    ⟨1, 31, 2, fun tm v => { tm with mday := v }, 'T'⟩,
    ⟨0, 23, 2, fun tm v => { tm with hour := v }, ':'⟩,
    ⟨0, 59, 2, fun tm v => { tm with min := v }, ':'⟩,
    ⟨0, 61, 2, fun tm v => { tm with sec := v }, 'Z'⟩]

/-- The fields are set as they are read, up to the first that cannot be read, or that another
character follows. -/
def strptime : List TmField → List Char → Tm → Tm
  | [], _, tm => tm
  | f :: fs, s, tm =>
      match getNumber f.lo f.hi f.digits s with
      | none => tm
      | some (v, s) =>
          match s with
          | [] => f.set tm v
          | c :: s => if c = f.next then strptime fs s (f.set tm v) else f.set tm v

example : mktime 28800 (strptime formatFTZ "1970-01-01T08:00:07.5+08:00".toList .zero) = 7 := by
  decide

/-! ## What was written is read -/

/-- The last digit of a number. -/
theorem lastDigit_spec (n : ℤ) :
    (lastDigit n).isDigit = true ∧ (lastDigit n).isWhitespace = false ∧
      digitValue (lastDigit n) = n % 10 := by
  have hlt : (n % 10).toNat < 10 := by omega
  have hcast : n % 10 = ((n % 10).toNat : ℤ) := by omega
  unfold lastDigit
  rw [hcast]
  generalize (n % 10).toNat = d at hlt
  rw [Int.toNat_natCast]
  revert d
  decide

variable {lo hi n : ℤ} {s : List Char}

theorem readDigits_zero (hi val : ℤ) (s : List Char) : readDigits hi 0 val s = (val, s) := by
  cases s
  · rfl
  · rfl

/-- Another digit. -/
theorem readDigits_lastDigit {k : ℕ} {val : ℤ} (h : val * 10 ≤ hi) :
    readDigits hi (k + 1) val (lastDigit n :: s) = readDigits hi k (val * 10 + n % 10) s := by
  obtain ⟨hdigit, -, hvalue⟩ := lastDigit_spec n
  rw [readDigits, if_pos ⟨hdigit, h⟩, hvalue]

/-- A number begins with a digit. -/
theorem getNumber_lastDigit {k : ℕ} :
    getNumber lo hi (k + 1) (lastDigit n :: s) =
      if lo ≤ (readDigits hi k (n % 10) s).1 ∧ (readDigits hi k (n % 10) s).1 ≤ hi then
        some (readDigits hi k (n % 10) s) else none := by
  obtain ⟨hdigit, hspace, hvalue⟩ := lastDigit_spec n
  rw [getNumber, List.dropWhile_cons_of_neg (by rw [hspace]; exact Bool.false_ne_true)]
  dsimp only
  rw [if_pos hdigit, hvalue, Nat.add_sub_cancel]

/-- A number of two digits is read. -/
theorem getNumber_pad2 (h₀ : 0 ≤ lo) (hlo : lo ≤ n) (hhi : n ≤ hi) (hn : n < 100) :
    getNumber lo hi 2 (pad2 n ++ s) = some (n, s) := by
  have hread : readDigits hi 1 (n / 10 % 10) (lastDigit n :: s) = (n, s) := by
    rw [readDigits_lastDigit (by omega), readDigits_zero]
    rw [show n / 10 % 10 * 10 + n % 10 = n by omega]
  rw [pad2, List.cons_append, List.cons_append, List.nil_append, getNumber_lastDigit, hread]
  exact if_pos ⟨hlo, hhi⟩

/-- A number of four digits is read. -/
theorem getNumber_pad4 (h₀ : 0 ≤ n) (hn : n ≤ 9999) :
    getNumber 0 9999 4 (pad4 n ++ s) = some (n, s) := by
  have hread : readDigits 9999 3 (n / 100 / 10 % 10)
      (lastDigit (n / 100) :: lastDigit (n / 10) :: lastDigit n :: s) = (n, s) := by
    rw [readDigits_lastDigit (by omega), readDigits_lastDigit (by omega),
      readDigits_lastDigit (by omega), readDigits_zero]
    rw [show ((n / 100 / 10 % 10 * 10 + n / 100 % 10) * 10 + n / 10 % 10) * 10 + n % 10 = n by
      omega]
  rw [pad4, pad2, pad2, List.append_assoc, List.cons_append, List.cons_append, List.nil_append,
    List.cons_append, List.cons_append, List.nil_append, getNumber_lastDigit, hread]
  exact if_pos ⟨h₀, hn⟩

section fields

variable {digits : ℕ} {set : Tm → ℤ → Tm} {next : Char} {fs : List TmField} {tm : Tm} {v : ℤ}
  {s' : List Char}

/-- A field that is read, with the character after it. -/
theorem strptime_cons (h : getNumber lo hi digits s = some (v, next :: s')) :
    strptime (⟨lo, hi, digits, set, next⟩ :: fs) s tm = strptime fs s' (set tm v) := by
  rw [strptime, h]
  exact if_pos rfl

/-- The last field may be followed by anything. -/
theorem strptime_last (h : getNumber lo hi digits s = some (v, s')) :
    strptime [⟨lo, hi, digits, set, next⟩] s tm = set tm v := by
  rw [strptime, h]
  cases s' with
  | nil => rfl
  | cons c s' =>
      dsimp only
      split_ifs
      · rfl
      · rfl

end fields

/-- The fields of a date and a time of day. -/
theorem strptime_dateTime {seconds : ℤ} (h₀ : 0 ≤ (civil (seconds / 86400)).1)
    (h₁ : (civil (seconds / 86400)).1 ≤ 9999) (s : List Char) (tm : Tm) :
    strptime formatFTZ (dateTime seconds ++ s) tm =
      ⟨(civil (seconds / 86400)).1, (civil (seconds / 86400)).2.1, (civil (seconds / 86400)).2.2,
        seconds % 86400 / 3600, seconds % 86400 / 60 % 60, seconds % 86400 % 60⟩ := by
  obtain ⟨hm₀, hm₁, hd₀, hd₁⟩ := civil_bounds (seconds / 86400)
  have hhour : seconds % 86400 / 3600 ≤ 23 := by omega
  have hmin : seconds % 86400 / 60 % 60 ≤ 59 := by omega
  have hsec : seconds % 86400 % 60 ≤ 61 := by omega
  simp only [dateTime, List.append_assoc, List.singleton_append, formatFTZ]
  refine (strptime_cons (getNumber_pad4 h₀ h₁)).trans ?_
  refine (strptime_cons (getNumber_pad2 zero_le_one hm₀ hm₁ (by omega))).trans ?_
  refine (strptime_cons (getNumber_pad2 zero_le_one hd₀ hd₁ (by omega))).trans ?_
  refine (strptime_cons (getNumber_pad2 le_rfl (by omega) hhour (by omega))).trans ?_
  refine (strptime_cons (getNumber_pad2 le_rfl (by omega) hmin (by omega))).trans ?_
  exact strptime_last (getNumber_pad2 le_rfl (Int.emod_nonneg _ (by decide)) hsec (by omega))

/-- **An instant that was written is read to the second**, in the zone in which it was written. -/
theorem mktime_strptime {offset t : ℤ} {text : List Char}
    (h : rfc3339Nano offset t = some text) (tm : Tm) :
    mktime offset (strptime formatFTZ text tm) = t / second := by
  unfold rfc3339Nano at h
  dsimp only at h
  split_ifs at h with hyear
  cases h
  rw [List.append_assoc, strptime_dateTime hyear.1 hyear.2, mktime]
  dsimp only
  rw [daysOf_civil]
  omega

/-- The zone in which the fields are taken moves the instant. -/
theorem mktime_zone (zone offset : ℤ) (tm : Tm) :
    mktime zone tm = mktime offset tm + (offset - zone) := by
  unfold mktime
  omega

/-! ## Minutes -/

/-- `(wait + 59) / 60` in an `int`, where the wait is not negative. -/
def minutesUntil (wait : ℤ) : ℤ :=
  if 0 ≤ wait then (BitVec.ofInt 32 ((wait + 59) / 60)).toInt else 0

/-- **So many minutes are enough.** -/
theorem minutesUntil_enough {wait : ℤ} (h : wait ≤ 2 ^ 36) : wait ≤ 60 * minutesUntil wait := by
  unfold minutesUntil
  split_ifs
  · rw [BitVec.toInt_ofInt, Int.bmod_eq_of_le (by omega) (by omega)]
    omega
  · omega

/-- **One less is not**, if any are shown. -/
theorem minutesUntil_tight {wait : ℤ} (h : wait ≤ 2 ^ 36) (hpos : 0 < minutesUntil wait) :
    60 * (minutesUntil wait - 1) < wait := by
  unfold minutesUntil at hpos ⊢
  split_ifs with hwait
  · rw [BitVec.toInt_ofInt, Int.bmod_eq_of_le (by omega) (by omega)]
    omega
  · rw [if_neg hwait] at hpos
    omega

/-- The minutes to an instant, of which `strptime` reads what it can; `now` is `time(NULL)`. -/
def minutesTo (zone now : ℤ) (text : List UInt8) : ℤ :=
  let getTime := strptime formatFTZ (text.map JsonText.charOf) .zero
  let getTimeTimestamp := mktime zone getTime
  minutesUntil (getTimeTimestamp - now)

/-- **The minutes to an instant that was written.** -/
theorem minutesTo_rfc3339Nano {offset t : ℤ} {text : List Char}
    (h : rfc3339Nano offset t = some text) (zone now : ℤ) :
    minutesTo zone now (text.map JsonText.byte) =
      minutesUntil (t / second + (offset - zone) - now) := by
  have hread : (text.map JsonText.byte).map JsonText.charOf = text :=
    JsonText.map_charOf_byte fun c hc => (JsonText.plain_rfc3339Nano h c hc).2.2.2
  rw [minutesTo, hread, mktime_zone zone offset, mktime_strptime h]

end LingmoAuthenticate.Lib
