import LingmoAuthenticate.Lib.Text
import LingmoAuthenticate.Limits.Accepted

/-!
# The entries of the limits message

`GetLimits` answers with a JSON text that has an entry for each limit of a user.

* `jsonEntry` is an entry, over the instants of the locks and the zones that they are kept in.
* `Limit.width` is the length of the longest entry that a configured limit leads to.
* `Limit.Counted` holds as long as the counters are counts of Go's `int`;
  `Limit.Counted.length_entry`: then no entry is longer, and by `exists_longest` one is as long.
-/

namespace LingmoAuthenticate.Limits

open Lib AuthCommon

/-! ## The text -/

/-- A text in quotes; no name of a type has a character that would be escaped. -/
def quoted (s : List Char) : List Char := '"' :: (s ++ ['"'])

/-- A Boolean. -/
def jsonBool (b : Bool) : List Char := if b then "true".toList else "false".toList

/-- An entry, by the tags of `LimitForExport`; there is none for an instant whose year has not four
digits. The zero time of a limit that is not locked is in UTC, and `offset` is that of the zone in
which the time of a lock is kept. -/
def jsonEntry (offset : AuthType → ℤ) (le : LimitForExport) : Option (List Char) :=
  (rfc3339Nano (if le.locked then offset le.type else 0) le.unlockTime).map fun unlockTime =>
    "\x7b\"type\":".toList ++ quoted le.type.text.toList ++
    ",\"flag\":".toList ++ decimal le.flag ++
    ",\"unlockSecs\":".toList ++ decimal le.unlockSecs ++
    ",\"maxTries\":".toList ++ decimal le.maxTries ++
    ",\"numFailures\":".toList ++ decimal le.numFailures ++
    ",\"locked\":".toList ++ jsonBool le.locked ++
    ",\"unlockTime\":".toList ++ quoted unlockTime ++ "\x7d".toList

/-! ## The longest entry of a limit -/

/-- The length of a number. -/
def numberWidth (n : ℤ) : ℕ := (decimal n).length

/-- The values of a locked entry: the duration, the failures, `true` and the longest instant. -/
def lockedWidth (secs : ℤ) (failures : ℕ) : ℕ :=
  if secs = 0 then 0 else numberWidth secs + failures + 39

/-- The longest locked entry of a dynamic limit whose first duration is that of `n` failures; any
number of failures from there on has the last one. -/
def dynamicWidth : ℤ → List ℤ → ℕ
  | _, [] => 0
  | n, secs :: rest =>
      if n < 2 ^ 63 then
        max (lockedWidth secs (if rest = [] then 19 else numberWidth n)) (dynamicWidth (n + 1) rest)
      else 0

/-- The values of the longest entry of a limit: `unlockSecs`, `maxTries`, `numFailures`, `locked`
and `unlockTime`. An entry that is not locked has `false` and the zero time. -/
def Limit.valuesWidth (l : Limit) : ℕ :=
  numberWidth l.maxTries +
    if l.maxTries = 0 then numberWidth l.unlockSecs + 44
    else if l.dynamicLimit then
      if l.dynamicLimitUnlockSecs = [] then numberWidth (l.maxTries - 1) + 26
      else max 45 (dynamicWidth l.maxTries l.dynamicLimitUnlockSecs)
    else if l.unlockSecs = 0 then 45
    else lockedWidth l.unlockSecs 19

/-- The longest entry of a limit. -/
def Limit.width (l : Limit) : ℕ :=
  86 + l.type0.text.length + numberWidth l.flag + l.valuesWidth

/-! ## The length of an entry -/

theorem length_quoted (s : List Char) : (quoted s).length = s.length + 2 := by
  rw [quoted, List.length_cons, List.length_append, List.length_singleton]

/-- The length of an entry, value by value. -/
theorem length_jsonEntry {offset : AuthType → ℤ} {le : LimitForExport} {text : List Char}
    (h : jsonEntry offset le = some text) :
    ∃ unlockTime, rfc3339Nano (if le.locked then offset le.type else 0) le.unlockTime =
        some unlockTime ∧
      text.length = 86 + le.type.text.length + numberWidth le.flag + numberWidth le.unlockSecs +
        numberWidth le.maxTries + numberWidth le.numFailures + (if le.locked then 4 else 5) +
        unlockTime.length := by
  obtain ⟨unlockTime, htime, rfl⟩ := Option.map_eq_some_iff.mp h
  refine ⟨unlockTime, htime, ?_⟩
  have hbool : (jsonBool le.locked).length = if le.locked then 4 else 5 := by
    unfold jsonBool
    split_ifs <;> rfl
  have hlits : ("\x7b\"type\":".toList).length = 8 ∧ (",\"flag\":".toList).length = 8 ∧
      (",\"unlockSecs\":".toList).length = 14 ∧ (",\"maxTries\":".toList).length = 12 ∧
      (",\"numFailures\":".toList).length = 15 ∧ (",\"locked\":".toList).length = 10 ∧
      (",\"unlockTime\":".toList).length = 14 ∧ ("\x7d".toList).length = 1 := by decide
  obtain ⟨h₁, h₂, h₃, h₄, h₅, h₆, h₇, h₈⟩ := hlits
  simp only [List.length_append, length_quoted, hbool, h₁, h₂, h₃, h₄, h₅, h₆, h₇, h₈,
    String.length_toList]
  unfold numberWidth
  omega

/-! ## Counters that count -/

/-- A limit of the configuration whose counter is a count of Go's `int`. The duration that a dynamic
limit without tries starts with may be forgotten. -/
structure Limit.Counted (l₀ l : Limit) : Prop where
  config : SameConfig l₀ l
  unlockSecs : l.maxTries = 0 → l.unlockSecs = l₀.unlockSecs ∨ l.unlockSecs = 0
  nonneg : 0 ≤ l.numFailures
  lt : l.numFailures < 2 ^ 63

namespace Limit.Counted

variable {l₀ l l' : Limit} {now : ℤ}

theorem reset (h : l₀.Counted l) : l₀.Counted l.reset := by
  refine ⟨h.config.trans (reset_sameConfig l), ?_, ?_, ?_⟩
  · intro hm
    rw [reset_maxTries] at hm
    rw [reset_unlockSecs]
    split_ifs
    · exact Or.inr rfl
    · exact h.unlockSecs hm
  · rw [reset_numFailures]
    split_ifs
    · exact h.nonneg
    · exact le_rfl
  · rw [reset_numFailures]
    split_ifs
    · exact h.lt
    · decide

theorem resetAll (h : l₀.Counted l) : l₀.Counted l.resetAll := by
  have hzero : l₀.Counted { l with numFailures := 0 } :=
    ⟨h.config, h.unlockSecs, le_rfl, (by decide : (0 : ℤ) < 2 ^ 63)⟩
  exact hzero.reset

theorem tryReset (h : l₀.Counted l) : l₀.Counted (l.tryReset now) := by
  rcases tryReset_eq_or l now with heq | heq
  · rw [heq]
    exact h
  · rw [heq]
    exact h.reset

theorem allow (h : l₀.Counted l) {r : Bool × ℤ} (ha : l.allow now = some (r, l')) :
    l₀.Counted l' := by
  by_cases hm : l.maxTries = 0
  · rw [Limit.allow, if_pos hm] at ha
    cases ha
    exact h
  · obtain ⟨l₁, hrefresh, rfl, -⟩ := (allow_eq_some hm).mp ha
    have hconfig : SameConfig l l₁ := refresh_sameConfig hrefresh
    have hcount : l₁.numFailures = l.numFailures := by
      unfold refresh at hrefresh
      split_ifs at hrefresh
      · obtain ⟨secs, -, rfl⟩ := Option.map_eq_some_iff.mp hrefresh
        rfl
      · cases hrefresh
        rfl
    have h₁ : l₀.Counted l₁ := by
      refine ⟨h.config.trans hconfig, ?_, hcount ▸ h.nonneg, hcount ▸ h.lt⟩
      intro hm₁
      exact absurd (hconfig.2.2.1.symm.trans hm₁) hm
    exact h₁.tryReset

/-- One more failure, where the counter does not wrap. -/
theorem fail (h : l₀.Counted l) (hlt : l.numFailures + 1 < 2 ^ 63) : l₀.Counted (l.fail now) := by
  refine ⟨h.config.trans (fail_sameConfig l now), ?_, ?_, ?_⟩
  all_goals
    have ht : l₀.Counted (l.tryReset now) := h.tryReset
    have hle : (l.tryReset now).numFailures ≤ l.numFailures := by
      rcases tryReset_eq_or l now with heq | heq
      · rw [heq]
      · rw [heq, reset_numFailures]
        split_ifs
        · exact le_rfl
        · exact h.nonneg
    have hnonneg := ht.nonneg
    unfold Limit.fail
    dsimp only
    split_ifs with hm hlock
  · exact h.unlockSecs
  · exact ht.unlockSecs
  · exact ht.unlockSecs
  · exact h.nonneg
  · dsimp only
    omega
  · dsimp only
    omega
  · exact h.lt
  · dsimp only
    omega
  · dsimp only
    omega

/-- A counter that is loaded. -/
theorem load (h : l₀.Counted l) {s : LimitState} (h0 : 0 ≤ s.numFailures)
    (hlt : s.numFailures < 2 ^ 63) : l₀.Counted (l.load s) :=
  ⟨h.config, h.unlockSecs, h0, hlt⟩

end Limit.Counted

/-! ## No entry is longer -/

/-- A question is answered with the zero time unless the limit is locked. -/
theorem Limit.answer_cases (l : Limit) :
    l.answer = (true, Time.zero) ∧ (l.numFailures < l.maxTries ∨ l.unlockSecs = 0) ∨
      l.answer.1 = false ∧ l.maxTries ≤ l.numFailures ∧ l.unlockSecs ≠ 0 := by
  unfold Limit.answer
  split_ifs with h₁ h₂
  · exact Or.inl ⟨rfl, Or.inl h₁⟩
  · exact Or.inl ⟨rfl, Or.inr h₂⟩
  · exact Or.inr ⟨rfl, not_lt.mp h₁, h₂⟩

/-- The length of an entry that is not locked, and of one that is. -/
theorem length_entry {offset : AuthType → ℤ} {l : Limit} {answer : Bool × ℤ} {text : List Char}
    (h : jsonEntry offset (l.forExport answer) = some text) :
    (answer = (true, Time.zero) →
      text.length = 86 + l.type0.text.length + numberWidth l.flag + numberWidth l.unlockSecs +
        numberWidth l.maxTries + numberWidth l.numFailures + 25) ∧
    text.length ≤ 86 + l.type0.text.length + numberWidth l.flag + numberWidth l.unlockSecs +
        numberWidth l.maxTries + numberWidth l.numFailures + (if answer.1 then 40 else 39) := by
  obtain ⟨unlockTime, htime, hlen⟩ := length_jsonEntry h
  constructor
  · rintro rfl
    have hzero : rfc3339Nano 0 Time.zero = some "0001-01-01T00:00:00Z".toList := by decide
    change rfc3339Nano 0 Time.zero = some unlockTime at htime
    rw [hzero, Option.some.injEq] at htime
    rw [hlen, ← htime]
    rfl
  · have hle := rfc3339Nano_length htime
    rw [hlen]
    cases hanswer : answer.1 with
    | true => simp [Limit.forExport, hanswer]; omega
    | false => simp [Limit.forExport, hanswer]; omega

theorem numberWidth_pos (n : ℤ) : 1 ≤ numberWidth n := length_decimal_pos n

/-- The duration of a number of failures from the first lock on; the last one serves for all later
failures. -/
def durationAt (durations : List ℤ) (failNum : ℤ) : Option ℤ :=
  if failNum ≥ durations.length then durations.getLast? else durations[failNum.toNat]?

theorem getDynamicLimitTime_of_le {l : Limit} (h : l.maxTries ≤ l.numFailures) :
    l.getDynamicLimitTime = durationAt l.dynamicLimitUnlockSecs (l.numFailures - l.maxTries) := by
  unfold Limit.getDynamicLimitTime durationAt
  exact if_neg (by omega)

/-- Refreshing a dynamic limit puts in the duration that is looked up. -/
theorem Limit.refresh_of_dynamic {l : Limit} {secs : ℤ} (hd : l.dynamicLimit = true)
    (h : l.getDynamicLimitTime = some secs) : l.refresh = some (l.setUnlockSecs secs) := by
  rw [refresh, if_pos hd, h, Option.map_some]

theorem durationAt_zero (d : ℤ) (durations : List ℤ) : durationAt (d :: durations) 0 = some d := by
  rw [durationAt, if_neg (by rw [List.length_cons]; omega)]
  rfl

theorem durationAt_singleton (d : ℤ) {failNum : ℤ} (h : 0 ≤ failNum) :
    durationAt [d] failNum = some d := by
  unfold durationAt
  rw [List.getLast?_singleton, List.length_singleton]
  split_ifs with hlast
  · rfl
  · have hzero : failNum.toNat = 0 := by omega
    rw [hzero]
    rfl

theorem durationAt_cons {d failNum : ℤ} {durations : List ℤ} (hne : durations ≠ [])
    (h : 0 < failNum) :
    durationAt (d :: durations) failNum = durationAt durations (failNum - 1) := by
  obtain ⟨d', rest, rfl⟩ := List.exists_cons_of_ne_nil hne
  have hnat : failNum.toNat = (failNum - 1).toNat + 1 := by omega
  unfold durationAt
  rw [hnat, List.getElem?_cons_succ, List.getLast?_cons_cons]
  simp only [List.length_cons]
  split_ifs with h₁ h₂
  · rfl
  · omega
  · omega
  · rfl

/-- A duration that is looked up is listed, and its entry is no longer than the longest. -/
theorem le_dynamicWidth {secs n m : ℤ} {durations : List ℤ} (hmn : m ≤ n) (h0 : 0 ≤ n)
    (hlt : n < 2 ^ 63) (hne : secs ≠ 0) (hsecs : durationAt durations (n - m) = some secs) :
    numberWidth secs + numberWidth n + 39 ≤ dynamicWidth m durations := by
  induction durations generalizing m with
  | nil => simp [durationAt] at hsecs
  | cons d durations ih =>
      have hwidth : numberWidth n ≤ 19 := length_decimal_le h0 hlt
      rw [dynamicWidth, if_pos (hmn.trans_lt hlt)]
      by_cases hnil : durations = []
      · rw [hnil, durationAt_singleton d (by omega), Option.some.injEq] at hsecs
        apply le_max_of_le_left
        rw [lockedWidth, hsecs, if_neg hne, if_pos hnil]
        omega
      · by_cases hfirst : n = m
        · rw [hfirst, sub_self, durationAt_zero, Option.some.injEq] at hsecs
          apply le_max_of_le_left
          rw [lockedWidth, hsecs, if_neg hne, if_neg hnil, hfirst]
        · apply le_max_of_le_right
          apply ih
          · omega
          · rw [← hsecs, durationAt_cons hnil (by omega), sub_sub]

/-- The longest locked entry is that of some number of failures. -/
theorem exists_dynamicWidth {m : ℤ} {durations : List ℤ} (hm : 0 ≤ m)
    (hpos : dynamicWidth m durations ≠ 0) :
    ∃ n secs, m ≤ n ∧ n < 2 ^ 63 ∧ secs ≠ 0 ∧ durationAt durations (n - m) = some secs ∧
      dynamicWidth m durations = numberWidth secs + numberWidth n + 39 := by
  induction durations generalizing m with
  | nil => exact absurd rfl hpos
  | cons d durations ih =>
      have hlt : m < 2 ^ 63 := by
        by_contra hge
        exact hpos (if_neg hge)
      rw [dynamicWidth, if_pos hlt] at hpos ⊢
      rcases le_total (dynamicWidth (m + 1) durations)
        (lockedWidth d (if durations = [] then 19 else numberWidth m)) with hle | hle
      · rw [max_eq_left hle] at hpos ⊢
        have hd : d ≠ 0 := by
          rintro rfl
          exact hpos (if_pos rfl)
        rw [lockedWidth, if_neg hd]
        split_ifs with hnil
        · refine ⟨2 ^ 63 - 1, d, by omega, by omega, hd, ?_, ?_⟩
          · rw [hnil, durationAt_singleton d (by omega)]
          · rw [show numberWidth (2 ^ 63 - 1) = 19 from by decide]
        · refine ⟨m, d, le_rfl, hlt, hd, ?_, rfl⟩
          rw [sub_self, durationAt_zero]
      · rw [max_eq_right hle] at hpos ⊢
        obtain ⟨n, secs, hmn, hn, hsecs, hlookup, hwidth⟩ := ih (by omega) hpos
        refine ⟨n, secs, by omega, hn, hsecs, ?_, hwidth⟩
        have hne : durations ≠ [] := by
          rintro rfl
          exact hpos rfl
        rw [← hlookup, durationAt_cons hne (by omega), sub_sub]

/-- A dynamic limit keeps its failures when it is asked, and its duration is the one that is looked
up, or forgotten. -/
theorem Limit.tryReset_of_dynamic {l : Limit} (hd : l.dynamicLimit = true) (secs now : ℤ) :
    let l' := (l.setUnlockSecs secs).tryReset now
    l'.numFailures = l.numFailures ∧ (l'.unlockSecs = secs ∨ l'.unlockSecs = 0) := by
  intro l'
  rcases tryReset_eq_or (l.setUnlockSecs secs) now with heq | heq
  · refine ⟨?_, Or.inl ?_⟩
    · rw [show l' = _ from heq, setUnlockSecs_numFailures]
    · rw [show l' = _ from heq]
      rfl
  · refine ⟨?_, Or.inr ?_⟩
    · rw [show l' = _ from heq, reset_numFailures, setUnlockSecs_dynamicLimit, if_pos hd,
        setUnlockSecs_numFailures]
    · rw [show l' = _ from heq, reset_unlockSecs, setUnlockSecs_dynamicLimit, if_pos hd]

/-- The entry of a dynamic limit. -/
theorem Limit.Counted.length_entry_dynamic {l₀ l l' : Limit} (h : l₀.Counted l) {now : ℤ}
    {r : Bool × ℤ} (ha : l.allow now = some (r, l')) (hm : l₀.maxTries ≠ 0)
    (hd : l₀.dynamicLimit = true) {offset : AuthType → ℤ} {text : List Char}
    (htext : jsonEntry offset (l'.forExport r) = some text) : text.length ≤ l₀.width := by
  have h' : l₀.Counted l' := h.allow ha
  have hcount : numberWidth l'.numFailures ≤ 19 := length_decimal_le h'.nonneg h'.lt
  obtain ⟨htype, hflag, hmax, -⟩ := h'.config
  obtain ⟨hopen, hbound⟩ := LingmoAuthenticate.Limits.length_entry htext
  rw [htype, hflag, hmax] at hopen hbound
  have hld : l.dynamicLimit = true := h.config.2.2.2.1.trans hd
  have hldurs : l.dynamicLimitUnlockSecs = l₀.dynamicLimitUnlockSecs := h.config.2.2.2.2.1
  have hlmax : l.maxTries = l₀.maxTries := h.config.2.2.1
  have hlm : l.maxTries ≠ 0 := hlmax.symm ▸ hm
  obtain ⟨l₁, hrefresh, rfl, rfl⟩ := (allow_eq_some hlm).mp ha
  unfold refresh at hrefresh
  rw [if_pos hld] at hrefresh
  obtain ⟨secs, hsecs, rfl⟩ := Option.map_eq_some_iff.mp hrefresh
  obtain ⟨hfailures, hunlock⟩ := tryReset_of_dynamic hld secs now
  unfold Limit.width valuesWidth
  rw [if_neg hm, if_pos hd]
  rcases answer_cases ((l.setUnlockSecs secs).tryReset now) with
    ⟨hanswer, hwhy⟩ | ⟨hanswer, hle, hne⟩
  · -- not locked: there is no duration
    have hlen := hopen hanswer
    have hlow : l.numFailures < l.maxTries → secs = 0 := by
      intro hlt
      rw [getDynamicLimitTime_of_lt hlt, Option.some.injEq] at hsecs
      exact hsecs.symm
    have hzero : ((l.setUnlockSecs secs).tryReset now).unlockSecs = 0 := by
      rcases hwhy with hlt | hzero
      · rw [hmax, hfailures, ← hlmax] at hlt
        rcases hunlock with heq | heq
        · rw [heq]
          exact hlow hlt
        · exact heq
      · exact hzero
    have hone : numberWidth 0 = 1 := by decide
    rw [hzero, hone] at hlen
    split_ifs with hnil
    · have hlt : l.numFailures < l.maxTries := by
        by_contra hge
        have hpanic := allow_eq_none hld hlm (hldurs.trans hnil) (not_lt.mp hge) now
        rw [ha] at hpanic
        cases hpanic
      have hmono : numberWidth l.numFailures ≤ numberWidth (l₀.maxTries - 1) :=
        length_decimal_mono h.nonneg (by omega)
      rw [hfailures] at hlen
      omega
    · have hmaxwidth := le_max_left 45 (dynamicWidth l₀.maxTries l₀.dynamicLimitUnlockSecs)
      omega
  · -- locked: the duration is that of the failures
    rw [hanswer] at hbound
    have heq : ((l.setUnlockSecs secs).tryReset now).unlockSecs = secs := by
      rcases hunlock with heq | heq
      · exact heq
      · exact absurd heq hne
    rw [heq] at hne hbound
    rw [hmax, hfailures, ← hlmax] at hle
    rw [hfailures] at hbound
    rw [getDynamicLimitTime_of_le hle, hldurs, hlmax] at hsecs
    have hwidth := le_dynamicWidth (hlmax ▸ hle) h.nonneg h.lt hne hsecs
    have hnil : l₀.dynamicLimitUnlockSecs ≠ [] := by
      intro hnil
      rw [hnil, dynamicWidth] at hwidth
      omega
    rw [if_neg hnil]
    have hmaxwidth := le_max_right 45 (dynamicWidth l₀.maxTries l₀.dynamicLimitUnlockSecs)
    simp only [Bool.false_eq_true, if_false] at hbound
    omega

/-- The entry of a limit with one duration. -/
theorem Limit.Counted.length_entry_static {l₀ l l' : Limit} (h : l₀.Counted l) {now : ℤ}
    {r : Bool × ℤ} (ha : l.allow now = some (r, l')) (hm : l₀.maxTries ≠ 0)
    (hd : l₀.dynamicLimit ≠ true) {offset : AuthType → ℤ} {text : List Char}
    (htext : jsonEntry offset (l'.forExport r) = some text) : text.length ≤ l₀.width := by
  have h' : l₀.Counted l' := h.allow ha
  have hcount : numberWidth l'.numFailures ≤ 19 := length_decimal_le h'.nonneg h'.lt
  obtain ⟨htype, hflag, hmax, -, -, hstatic⟩ := h'.config
  obtain ⟨hopen, hbound⟩ := LingmoAuthenticate.Limits.length_entry htext
  rw [htype, hflag, hmax] at hopen hbound
  have hlm : l.maxTries ≠ 0 := fun h0 => hm (h.config.2.2.1.symm.trans h0)
  obtain ⟨l₁, -, rfl, rfl⟩ := (allow_eq_some hlm).mp ha
  have hu : (l₁.tryReset now).unlockSecs = l₀.unlockSecs := hstatic (by simpa using hd)
  rw [hu] at hopen hbound
  unfold Limit.width valuesWidth
  rw [if_neg hm, if_neg hd]
  rcases answer_cases (l₁.tryReset now) with ⟨hanswer, hwhy⟩ | ⟨hanswer, hle, hne⟩
  · have hlen := hopen hanswer
    split_ifs with hzero
    · have hone : numberWidth 0 = 1 := by decide
      rw [hzero, hone] at hlen
      omega
    · rw [lockedWidth, if_neg hzero]
      omega
  · rw [hu] at hne
    rw [if_neg hne, lockedWidth, if_neg hne]
    rw [hanswer] at hbound
    simp only [Bool.false_eq_true, if_false] at hbound
    omega

/-- **The longest entry of a limit.** -/
theorem Limit.Counted.length_entry {l₀ l l' : Limit} (h : l₀.Counted l) {now : ℤ} {r : Bool × ℤ}
    (ha : l.allow now = some (r, l')) {offset : AuthType → ℤ} {text : List Char}
    (htext : jsonEntry offset (l'.forExport r) = some text) : text.length ≤ l₀.width := by
  by_cases hm₀ : l₀.maxTries = 0
  · -- without tries nothing is looked at
    have h' : l₀.Counted l' := h.allow ha
    have hcount : numberWidth l'.numFailures ≤ 19 := length_decimal_le h'.nonneg h'.lt
    obtain ⟨htype, hflag, hmax, -⟩ := h'.config
    obtain ⟨hopen, -⟩ := LingmoAuthenticate.Limits.length_entry htext
    rw [htype, hflag, hmax] at hopen
    have hm : l.maxTries = 0 := h.config.2.2.1.trans hm₀
    rw [Limit.allow, if_pos hm] at ha
    cases ha
    have hlen := hopen rfl
    unfold Limit.width valuesWidth
    rw [if_pos hm₀]
    have hsecs : numberWidth l.unlockSecs ≤ numberWidth l₀.unlockSecs := by
      rcases h.unlockSecs hm with heq | heq
      · rw [heq]
      · rw [heq, (by decide : numberWidth 0 = 1)]
        exact numberWidth_pos _
    omega
  · by_cases hd : l₀.dynamicLimit = true
    · exact h.length_entry_dynamic ha hm₀ hd htext
    · exact h.length_entry_static ha hm₀ hd htext

/-! ## The longest entry is reached -/

/-- At the end of a lock it is not over yet. -/
theorem Limit.tryReset_of_end {l : Limit} {now : ℤ}
    (h : l.lockAt = now - int64 (second * l.unlockSecs)) : l.tryReset now = l := by
  have helapsed : int64 (Time.unixNano now - Time.unixNano l.lockAt) =
      int64 (second * l.unlockSecs) := by
    unfold Time.unixNano
    calc int64 (int64 now - int64 l.lockAt)
      _ = int64 (now - l.lockAt) := (Int.sub_bmod now l.lockAt (2 ^ 64)).symm
      _ = int64 (int64 (second * l.unlockSecs)) := by rw [h, sub_sub_cancel]
      _ = int64 (second * l.unlockSecs) := Int.bmod_bmod
  unfold tryReset
  dsimp only
  rw [helapsed, if_neg (lt_irrefl _)]
  split_ifs
  · rfl
  · rfl
  · rfl

/-- The zone and the instant of a longest message. -/
def longestOffset (_ : AuthType) : ℤ := 28800

/-- A state that leads, one nanosecond after the epoch, to the longest entry of a limit. -/
structure Limit.Longest (l : Limit) (s : LimitState) : Prop where
  type : s.type = l.type0
  nonneg : 0 ≤ s.numFailures
  lt : s.numFailures < 2 ^ 63
  entry : ∃ answer l' text, (l.load s).allow 1 = some (answer, l') ∧
    jsonEntry longestOffset (l'.forExport answer) = some text ∧ text.length = l.width

namespace Limit.Longest

variable {l l' : Limit} {n lockAt secs : ℤ}

/-- The length of the entry, from the answer. -/
theorem of_allow {answer : Bool × ℤ} {unlockTime : List Char} (h0 : 0 ≤ n) (hlt : n < 2 ^ 63)
    (ha : (l.load ⟨l.type0, n, lockAt⟩).allow 1 = some (answer, l'))
    (htime : rfc3339Nano (if !answer.1 then 28800 else 0) answer.2 = some unlockTime)
    (hwidth : numberWidth l'.unlockSecs + numberWidth l.maxTries + numberWidth l'.numFailures +
      (if !answer.1 then 4 else 5) + unlockTime.length = l.valuesWidth) :
    l.Longest ⟨l.type0, n, lockAt⟩ := by
  refine ⟨rfl, h0, hlt, ?_⟩
  have hentry : ∃ text, jsonEntry longestOffset (l'.forExport answer) = some text :=
    ⟨_, Option.map_eq_some_iff.mpr ⟨unlockTime, htime, rfl⟩⟩
  obtain ⟨text, htext⟩ := hentry
  refine ⟨answer, l', text, ha, htext, ?_⟩
  obtain ⟨unlockTime', htime', hlen⟩ := length_jsonEntry htext
  obtain rfl : unlockTime = unlockTime' := Option.some.inj (htime.symm.trans htime')
  obtain ⟨htype, hflag, hmax, -⟩ := allow_sameConfig ha
  change l'.type0 = l.type0 at htype
  change l'.flag = l.flag at hflag
  change l'.maxTries = l.maxTries at hmax
  unfold Limit.width
  rw [hlen, ← hwidth]
  simp only [forExport, htype, hflag, hmax]
  omega

/-- Where the tries are used up: the entry of a lock, or of none if the duration is zero. -/
theorem of_refresh (hm : l.maxTries ≠ 0) (hle : l.maxTries ≤ n) (h0 : 0 ≤ n) (hlt : n < 2 ^ 63)
    (hrefresh : (l.load ⟨l.type0, n, 1 - int64 (second * secs)⟩).refresh =
      some ((l.load ⟨l.type0, n, 1 - int64 (second * secs)⟩).setUnlockSecs secs))
    (hwidth : numberWidth l.maxTries + (if secs = 0 then numberWidth n + 26
      else numberWidth secs + numberWidth n + 39) = l.valuesWidth) :
    l.Longest ⟨l.type0, n, 1 - int64 (second * secs)⟩ := by
  have hend : ((l.load ⟨l.type0, n, 1 - int64 (second * secs)⟩).setUnlockSecs secs).tryReset 1 =
      (l.load ⟨l.type0, n, 1 - int64 (second * secs)⟩).setUnlockSecs secs :=
    tryReset_of_end rfl
  have ha := (allow_eq_some (l := l.load ⟨l.type0, n, 1 - int64 (second * secs)⟩) hm).mpr
    ⟨_, hrefresh, hend.symm, rfl⟩
  by_cases hsecs : secs = 0
  · rw [answer_of_zero hsecs] at ha
    rw [if_pos hsecs] at hwidth
    have hzero : rfc3339Nano 0 Time.zero = some "0001-01-01T00:00:00Z".toList := by decide
    refine of_allow h0 hlt ha hzero ?_
    have hone : numberWidth 0 = 1 := by decide
    have hlen : "0001-01-01T00:00:00Z".toList.length = 20 := by decide
    rw [hlen, setUnlockSecs_unlockSecs, hsecs, hone]
    simp only [setUnlockSecs_numFailures, load, Bool.not_true, Bool.false_eq_true, if_false]
    omega
  · rw [answer_of_le hle hsecs] at ha
    rw [if_neg hsecs] at hwidth
    have htime : rfc3339Nano 28800 (Time.add (1 - int64 (second * secs)) (int64 (second * secs))) =
        some "1970-01-01T08:00:00.000000001+08:00".toList := by
      rw [Time.add, sub_add_cancel]
      decide
    refine of_allow h0 hlt ha htime ?_
    have hlen : "1970-01-01T08:00:00.000000001+08:00".toList.length = 35 := by decide
    rw [hlen, setUnlockSecs_unlockSecs]
    simp only [setUnlockSecs_numFailures, load, Bool.not_false, if_true]
    omega

end Limit.Longest

/-- **Every limit has a longest entry**: some state leads to it. -/
theorem exists_longest {l : Limit} (h0 : 0 ≤ l.maxTries) (hlt : l.maxTries < 2 ^ 63) :
    ∃ s, l.Longest s := by
  have hcount : numberWidth (2 ^ 63 - 1) = 19 := by decide
  by_cases hm : l.maxTries = 0
  · have ha : (l.load ⟨l.type0, 2 ^ 63 - 1, 0⟩).allow 1 =
        some ((true, Time.zero), l.load ⟨l.type0, 2 ^ 63 - 1, 0⟩) := if_pos hm
    have hzero : rfc3339Nano 0 Time.zero = some "0001-01-01T00:00:00Z".toList := by decide
    refine ⟨_, .of_allow (by decide) (by decide) ha hzero ?_⟩
    have hlen : "0001-01-01T00:00:00Z".toList.length = 20 := by decide
    unfold Limit.valuesWidth
    rw [hlen, if_pos hm]
    simp only [Limit.load, hcount, Bool.not_true, Bool.false_eq_true, if_false]
    omega
  have hpos : 0 < l.maxTries := by omega
  have hcount63 : (2 : ℤ) ^ 63 - 1 < 2 ^ 63 := by decide
  by_cases hd : l.dynamicLimit = true
  · have hrefresh : ∀ n lockAt secs, l.maxTries ≤ n →
        durationAt l.dynamicLimitUnlockSecs (n - l.maxTries) = some secs →
        (l.load ⟨l.type0, n, lockAt⟩).refresh =
          some ((l.load ⟨l.type0, n, lockAt⟩).setUnlockSecs secs) := by
      intro n lockAt secs hle hsecs
      have hlookup : (l.load ⟨l.type0, n, lockAt⟩).getDynamicLimitTime = some secs :=
        (getDynamicLimitTime_of_le (l := l.load ⟨l.type0, n, lockAt⟩) hle).trans hsecs
      exact Limit.refresh_of_dynamic (l := l.load ⟨l.type0, n, lockAt⟩) hd hlookup
    by_cases hnil : l.dynamicLimitUnlockSecs = []
    · -- one failure less than there are tries: with one more, the question would panic
      have hlow : (l.load ⟨l.type0, l.maxTries - 1, 0⟩).numFailures <
          (l.load ⟨l.type0, l.maxTries - 1, 0⟩).maxTries := Int.sub_one_lt_of_le le_rfl
      have hopen : (l.load ⟨l.type0, l.maxTries - 1, 0⟩).refresh =
          some ((l.load ⟨l.type0, l.maxTries - 1, 0⟩).setUnlockSecs 0) :=
        Limit.refresh_of_dynamic (l := l.load ⟨l.type0, l.maxTries - 1, 0⟩) hd
          (Limit.getDynamicLimitTime_of_lt hlow)
      have hstays : ((l.load ⟨l.type0, l.maxTries - 1, 0⟩).setUnlockSecs 0).tryReset 1 =
          (l.load ⟨l.type0, l.maxTries - 1, 0⟩).setUnlockSecs 0 := Limit.tryReset_of_lt hlow
      have ha := (Limit.allow_eq_some (l := l.load ⟨l.type0, l.maxTries - 1, 0⟩) hm).mpr
        ⟨_, hopen, hstays.symm, rfl⟩
      rw [Limit.answer_of_zero rfl] at ha
      have hzero : rfc3339Nano 0 Time.zero = some "0001-01-01T00:00:00Z".toList := by decide
      refine ⟨_, .of_allow (by omega) (by omega) ha hzero ?_⟩
      have hone : numberWidth 0 = 1 := by decide
      have hlen : "0001-01-01T00:00:00Z".toList.length = 20 := by decide
      unfold Limit.valuesWidth
      rw [hlen, if_neg hm, if_pos hd, if_pos hnil, Limit.setUnlockSecs_unlockSecs, hone]
      simp only [Limit.setUnlockSecs_numFailures, Limit.load, Bool.not_true, Bool.false_eq_true,
        if_false]
      omega
    · by_cases hwide : dynamicWidth l.maxTries l.dynamicLimitUnlockSecs ≤ 45
      · -- no lock is that long, so that the longest counter has the duration zero
        obtain ⟨secs, hsecs⟩ : ∃ secs, durationAt l.dynamicLimitUnlockSecs
            (2 ^ 63 - 1 - l.maxTries) = some secs := by
          have hsome := Limit.getDynamicLimitTime_isSome
            (l := l.load ⟨l.type0, 2 ^ 63 - 1, 0⟩) hnil
          rw [getDynamicLimitTime_of_le (l := l.load ⟨l.type0, 2 ^ 63 - 1, 0⟩)
            (by simp only [Limit.load]; omega)] at hsome
          exact Option.isSome_iff_exists.mp hsome
        obtain rfl : secs = 0 := by
          by_contra hne
          have hle := le_dynamicWidth (by omega) (by omega) hcount63 hne hsecs
          have hsecspos := numberWidth_pos secs
          omega
        refine ⟨_, .of_refresh hm (by omega) (by omega) hcount63
          (hrefresh _ _ 0 (by omega) hsecs) ?_⟩
        unfold Limit.valuesWidth
        rw [if_pos rfl, if_neg hm, if_pos hd, if_neg hnil, max_eq_left hwide, hcount]
      · obtain ⟨n, secs, hle, hn, hne, hsecs, hwidth⟩ :=
          exists_dynamicWidth hpos.le (by omega : dynamicWidth _ l.dynamicLimitUnlockSecs ≠ 0)
        refine ⟨_, .of_refresh hm hle (by omega) hn (hrefresh _ _ secs hle hsecs) ?_⟩
        unfold Limit.valuesWidth
        rw [if_neg hne, if_neg hm, if_pos hd, if_neg hnil, max_eq_right (by omega), hwidth]
  · have hrefresh : (l.load ⟨l.type0, 2 ^ 63 - 1, 1 - int64 (second * l.unlockSecs)⟩).refresh =
        some ((l.load ⟨l.type0, 2 ^ 63 - 1, 1 - int64 (second * l.unlockSecs)⟩).setUnlockSecs
          l.unlockSecs) := if_neg hd
    refine ⟨_, .of_refresh hm (by omega) (by omega) hcount63 hrefresh ?_⟩
    unfold Limit.valuesWidth
    rw [if_neg hm, if_neg hd]
    split_ifs with hzero
    · rw [hcount]
    · rw [lockedWidth, if_neg hzero, hcount]

end LingmoAuthenticate.Limits
