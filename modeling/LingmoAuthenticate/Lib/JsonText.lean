import Mathlib.Data.List.TakeWhile
import LingmoAuthenticate.Lib.JsonC
import LingmoAuthenticate.Lib.Path
import LingmoAuthenticate.Lib.Text

/-!
# Texts of JSON, and their reader

The texts of arrays of objects whose members are strings, integers and Booleans, without spaces, as
an encoder writes them; no character of a string is escaped.

* `readItems_intercalate`: what is written with commas in between is read by the reader of an item.
* `read_arrayText`: the reader takes the text of an array to its objects.
* `JsonC.Reads`: of json-c, what is documented of such texts and values; `JsonC.plain` does so.
-/

namespace LingmoAuthenticate.Lib

namespace JsonText

/-! ## Texts -/

/-- A member of an object. -/
inductive Scalar where
  | string (s : List Char)
  | int (i : ℤ)
  | boolean (b : Bool)
  deriving DecidableEq, Repr

/-- A text in quotes. -/
def quote (s : List Char) : List Char := '"' :: (s ++ ['"'])

/-- The text of a value. -/
def Scalar.text : Scalar → List Char
  | .string s => quote s
  | .int i => decimal i
  | .boolean b => if b then "true".toList else "false".toList

/-- The members of an object, in order. -/
abbrev Members := List (String × Scalar)

def memberText (m : String × Scalar) : List Char := quote m.1.toList ++ ':' :: m.2.text

def objectText (ms : Members) : List Char :=
  '\x7b' :: (List.intercalate [','] (ms.map memberText) ++ ['\x7d'])

def arrayText (es : List Members) : List Char :=
  '[' :: (List.intercalate [','] (es.map objectText) ++ [']'])

/-! ## Values -/

/-- The byte of a character. -/
def byte (c : Char) : UInt8 := UInt8.ofNat c.toNat

/-- The value, as json-c has it. -/
def Scalar.json : Scalar → Json
  | .string s => .string (s.map byte)
  | .int i => .int i
  | .boolean b => .boolean b

def objectJson (ms : Members) : Json := .object (ms.map fun m => (m.1, m.2.json))

def arrayJson (es : List Members) : Json := .array (es.map objectJson)

/-- No character is escaped. -/
def Plain (s : List Char) : Prop :=
  ∀ c ∈ s, c ≠ '"' ∧ c ≠ '\\' ∧ 32 ≤ c.toNat ∧ c.toNat < 128

instance (s : List Char) : Decidable (Plain s) :=
  List.decidableBAll (fun c => c ≠ '"' ∧ c ≠ '\\' ∧ 32 ≤ c.toNat ∧ c.toNat < 128) s

/-- The strings of a value are plain. -/
def Scalar.Plain : Scalar → Prop
  | .string s => JsonText.Plain s
  | _ => True

/-- The keys and the strings of the objects are plain. -/
def PlainArray (es : List Members) : Prop :=
  ∀ ms ∈ es, ∀ m ∈ ms, Plain m.1.toList ∧ m.2.Plain

/-! ## The reader -/

/-- A string, up to the next quote. -/
def readString : List Char → Option (List Char × List Char)
  | '"' :: s =>
      match s.dropWhile (· ≠ '"') with
      | _ :: rest => some (s.takeWhile (· ≠ '"'), rest)
      | [] => none
  | _ => none

/-- The digits of a number. -/
def readNat (s : List Char) : Option (ℕ × List Char) :=
  if s.takeWhile Char.isDigit = [] then none
  else some (Nat.ofDigitChars 10 (s.takeWhile Char.isDigit) 0, s.dropWhile Char.isDigit)

def readInt : List Char → Option (ℤ × List Char)
  | '-' :: s => (readNat s).map fun r => (-(r.1 : ℤ), r.2)
  | s => (readNat s).map fun r => ((r.1 : ℤ), r.2)

def readScalar : List Char → Option (Scalar × List Char)
  | '"' :: s => (readString ('"' :: s)).map fun r => (.string r.1, r.2)
  | 't' :: 'r' :: 'u' :: 'e' :: s => some (.boolean true, s)
  | 'f' :: 'a' :: 'l' :: 's' :: 'e' :: s => some (.boolean false, s)
  | s => (readInt s).map fun r => (.int r.1, r.2)

def readMember (s : List Char) : Option ((String × Scalar) × List Char) :=
  (readString s).bind fun key =>
    match key.2 with
    | ':' :: s => (readScalar s).map fun v => ((String.ofList key.1, v.1), v.2)
    | _ => none

section items

variable {α : Type}

/-- Items with commas in between, up to a bracket. -/
def readItems (item : List Char → Option (α × List Char)) (close : Char) :
    ℕ → List Char → Option (List α × List Char)
  | 0, _ => none
  | n + 1, s =>
      (item s).bind fun a =>
        match a.2 with
        | [] => none
        | c :: s =>
            if c = ',' then (readItems item close n s).map fun as => (a.1 :: as.1, as.2)
            else if c = close then some ([a.1], s)
            else none

/-- The same, with a bracket that may come at once. -/
def readSeq (item : List Char → Option (α × List Char)) (close : Char) (s : List Char) :
    Option (List α × List Char) :=
  if s.head? = some close then some ([], s.tail) else readItems item close s.length s

end items

def readObject : List Char → Option (Members × List Char)
  | '\x7b' :: s => readSeq readMember '\x7d' s
  | _ => none

/-- An array of objects, and nothing after it. -/
def read : List Char → Option (List Members)
  | '[' :: s =>
      match readSeq readObject ']' s with
      | some (es, []) => some es
      | _ => none
  | _ => none

example : read "[\x7b\"flag\":-1,\"locked\":true\x7d,\x7b\x7d]".toList =
    some [[("flag", .int (-1)), ("locked", .boolean true)], []] := by decide

/-! ## What was written is read -/

section items

variable {α : Type} {item : List Char → Option (α × List Char)} {close : Char}
  {text : α → List Char} {as : List α} {s : List Char}

/-- **Items in a row.** -/
theorem readItems_intercalate (hclose : close ≠ ',')
    (hitem : ∀ a ∈ as, ∀ c s, c = ',' ∨ c = close → item (text a ++ c :: s) = some (a, c :: s))
    (hne : as ≠ []) {n : ℕ} (hn : as.length ≤ n) :
    readItems item close n (List.intercalate [','] (as.map text) ++ close :: s) =
      some (as, s) := by
  induction as generalizing n with
  | nil => exact absurd rfl hne
  | cons a as ih =>
      obtain ⟨n, rfl⟩ : ∃ k, n = k + 1 := ⟨n - 1, by rw [List.length_cons] at hn; omega⟩
      obtain ⟨ha, has⟩ := List.forall_mem_cons.mp hitem
      by_cases hnil : as = []
      · subst hnil
        rw [List.map_singleton, List.intercalate_singleton, readItems, ha close s (.inr rfl)]
        simp [hclose]
      · have hrest := ih has hnil (Nat.le_of_succ_le_succ hn)
        have htexts : as.map text ≠ [] := by simpa using hnil
        rw [List.map_cons, List.intercalate_cons_of_ne_nil htexts, List.append_assoc,
          List.append_assoc, List.singleton_append, readItems, ha ',' _ (.inl rfl)]
        simp [hrest]

/-- There is at least one character for each item. -/
theorem length_le_intercalate (texts : List (List Char)) :
    texts.length ≤ (List.intercalate [','] texts).length + 1 := by
  induction texts with
  | nil => exact Nat.zero_le _
  | cons t texts ih =>
      by_cases hnil : texts = []
      · rw [hnil, List.length_singleton]
        omega
      · rw [List.intercalate_cons_of_ne_nil hnil]
        simp only [List.length_cons, List.length_append, List.length_nil]
        omega

theorem readSeq_intercalate (hclose : close ≠ ',')
    (hitem : ∀ a ∈ as, ∀ c s, c = ',' ∨ c = close → item (text a ++ c :: s) = some (a, c :: s))
    (hhead : ∀ a ∈ as, ∃ c t, text a = c :: t ∧ c ≠ close) :
    readSeq item close (List.intercalate [','] (as.map text) ++ close :: s) = some (as, s) := by
  unfold readSeq
  rcases as with _ | ⟨a, as⟩
  · rw [List.map_nil, List.intercalate_nil, List.nil_append]
    exact if_pos rfl
  · obtain ⟨c, t, hc, hne⟩ := hhead a List.mem_cons_self
    have hfirst : ∃ t', List.intercalate [','] ((a :: as).map text) = c :: t' := by
      rw [List.map_cons, hc]
      by_cases hnil : as.map text = []
      · exact ⟨t, by rw [hnil, List.intercalate_singleton]⟩
      · exact ⟨_, by rw [List.intercalate_cons_of_ne_nil hnil]; rfl⟩
    rw [if_neg]
    · refine readItems_intercalate hclose hitem (List.cons_ne_nil a as) ?_
      have hlen := length_le_intercalate ((a :: as).map text)
      rw [List.length_map] at hlen
      have hone : 1 ≤ (close :: s).length := Nat.succ_le_succ (Nat.zero_le _)
      rw [List.length_append]
      omega
    · obtain ⟨t', ht'⟩ := hfirst
      rw [ht', List.cons_append, List.head?_cons, Option.some.injEq]
      exact hne

end items

variable {s : List Char} {c : Char}

theorem readString_quote {t : List Char} (h : Plain t) :
    readString (quote t ++ s) = some (t, s) := by
  have hdrop : (t ++ '"' :: s).dropWhile (· ≠ '"') = '"' :: s := by
    rw [List.dropWhile_append_of_pos fun c hc => by simpa using (h c hc).1]
    rfl
  have htake : (t ++ '"' :: s).takeWhile (· ≠ '"') = t := by
    rw [List.takeWhile_append_of_pos fun c hc => by simpa using (h c hc).1]
    simp
  have heq : quote t ++ s = '"' :: (t ++ '"' :: s) := by simp [quote]
  rw [heq, readString, hdrop, htake]

theorem readNat_toDigits (n : ℕ) (hc : c.isDigit = false) :
    readNat (Nat.toDigits 10 n ++ c :: s) = some (n, c :: s) := by
  have hdigit : ∀ d ∈ Nat.toDigits 10 n, d.isDigit = true :=
    fun d hd => Nat.isDigit_of_mem_toDigits (by decide) (by decide) hd
  have htake : (Nat.toDigits 10 n ++ c :: s).takeWhile Char.isDigit = Nat.toDigits 10 n := by
    rw [List.takeWhile_append_of_pos hdigit, List.takeWhile_cons_of_neg (by simp [hc]),
      List.append_nil]
  have hdrop : (Nat.toDigits 10 n ++ c :: s).dropWhile Char.isDigit = c :: s := by
    rw [List.dropWhile_append_of_pos hdigit, List.dropWhile_cons_of_neg (by simp [hc])]
  rw [readNat, htake, hdrop, if_neg Nat.toDigits_ne_nil, Nat.ofDigitChars_ten_toDigits]

/-- The first character of a number. -/
theorem decimal_head (i : ℤ) :
    ∃ d t, decimal i = d :: t ∧ (d = '-' ∨ d.isDigit = true) := by
  unfold decimal
  split_ifs
  · exact ⟨'-', _, rfl, .inl rfl⟩
  · obtain ⟨d, t, ht⟩ := List.exists_cons_of_ne_nil
      (Nat.toDigits_ne_nil (n := i.natAbs) (b := 10))
    exact ⟨d, t, ht, .inr (Nat.isDigit_of_mem_toDigits (by decide) (by decide)
      (ht ▸ List.mem_cons_self))⟩

theorem readInt_decimal (i : ℤ) (hc : c.isDigit = false) :
    readInt (decimal i ++ c :: s) = some (i, c :: s) := by
  by_cases hneg : i < 0
  · rw [decimal, if_pos hneg, List.cons_append, readInt, readNat_toDigits _ hc]
    simp only [Option.map_some, Option.some.injEq, Prod.mk.injEq, and_true]
    omega
  · have hdigits := decimal_of_nonneg (not_lt.mp hneg)
    obtain ⟨d, t, ht, hd⟩ := decimal_head i
    have hminus : d ≠ '-' := by
      rintro rfl
      have hmem : '-' ∈ Nat.toDigits 10 i.natAbs := by
        rw [← hdigits, ht]
        exact List.mem_cons_self
      exact absurd (Nat.isDigit_of_mem_toDigits (by decide) (by decide) hmem) (by decide)
    have hread : readInt (decimal i ++ c :: s) =
        (readNat (decimal i ++ c :: s)).map fun r => ((r.1 : ℤ), r.2) := by
      rw [ht, List.cons_append]
      unfold readInt
      split
      · next heq => exact absurd (List.cons.inj heq).1 hminus
      · rfl
    rw [hread, hdigits, readNat_toDigits _ hc]
    simp only [Option.map_some, Option.some.injEq, Prod.mk.injEq, and_true]
    omega

theorem readScalar_text {v : Scalar} (hv : v.Plain) (hc : c.isDigit = false) :
    readScalar (v.text ++ c :: s) = some (v, c :: s) := by
  cases v with
  | string t =>
      have hread : readScalar (quote t ++ c :: s) =
          (readString (quote t ++ c :: s)).map fun r => (.string r.1, r.2) := rfl
      rw [Scalar.text, hread, readString_quote hv]
      rfl
  | int i =>
      obtain ⟨d, t, ht, hd⟩ := decimal_head i
      have hread : readScalar (decimal i ++ c :: s) =
          (readInt (decimal i ++ c :: s)).map fun r => (.int r.1, r.2) := by
        rw [ht, List.cons_append]
        unfold readScalar
        split
        · next heq =>
          obtain ⟨rfl, -⟩ := List.cons.inj heq
          exact absurd hd (by decide)
        · next heq =>
          obtain ⟨rfl, -⟩ := List.cons.inj heq
          exact absurd hd (by decide)
        · next heq =>
          obtain ⟨rfl, -⟩ := List.cons.inj heq
          exact absurd hd (by decide)
        · rfl
      rw [Scalar.text, hread, readInt_decimal i hc]
      rfl
  | boolean b =>
      cases b
      · rfl
      · rfl

theorem readMember_memberText {m : String × Scalar} (hkey : Plain m.1.toList) (hv : m.2.Plain)
    (hc : c.isDigit = false) :
    readMember (memberText m ++ c :: s) = some (m, c :: s) := by
  rw [memberText, List.append_assoc, List.cons_append, readMember, readString_quote hkey]
  simp [readScalar_text hv hc]

theorem readObject_objectText {ms : Members} (h : ∀ m ∈ ms, Plain m.1.toList ∧ m.2.Plain) :
    readObject (objectText ms ++ s) = some (ms, s) := by
  rw [objectText, List.cons_append, List.append_assoc, List.singleton_append, readObject]
  refine readSeq_intercalate (by decide) ?_ ?_
  · rintro m hm c s hc
    have hdigit : c.isDigit = false := by rcases hc with rfl | rfl <;> decide
    exact readMember_memberText (h m hm).1 (h m hm).2 hdigit
  · intro m _
    exact ⟨'"', _, rfl, by decide⟩

/-- **The text of an array is read.** -/
theorem read_arrayText {es : List Members} (h : PlainArray es) : read (arrayText es) = some es := by
  have hseq : readSeq readObject ']' (List.intercalate [','] (es.map objectText) ++ [']']) =
      some (es, []) := by
    refine readSeq_intercalate (by decide) ?_ ?_
    · intro ms hms c s _
      exact readObject_objectText (h ms hms)
    · intro ms _
      exact ⟨'\x7b', _, rfl, by decide⟩
  rw [arrayText, read, hseq]

/-! ## Instants -/

theorem plain_append {t : List Char} (hs : Plain s) (ht : Plain t) : Plain (s ++ t) :=
  fun c hc => (List.mem_append.mp hc).elim (hs c) (ht c)

theorem plain_lastDigit (n : ℤ) : Plain [lastDigit n] := by
  have hlt : (n % 10).toNat < 10 := by omega
  unfold lastDigit
  generalize (n % 10).toNat = d at hlt
  revert d
  decide

theorem plain_pad2 (n : ℤ) : Plain (pad2 n) :=
  plain_append (plain_lastDigit (n / 10)) (plain_lastDigit n)

theorem plain_fraction (nanos : ℤ) : Plain (fraction nanos) := by
  unfold fraction
  dsimp only
  split_ifs
  · exact fun c hc => absurd hc List.not_mem_nil
  · refine plain_append (by decide : Plain ['.']) ?_
    intro c hc
    have hmem := (List.rdropWhile_prefix _ _).subset hc
    refine plain_append ?_ (plain_lastDigit nanos) c hmem
    exact plain_append (plain_append (plain_append (plain_pad2 _) (plain_pad2 _)) (plain_pad2 _))
      (plain_pad2 _)

theorem plain_zone (offset : ℤ) : Plain (zone offset) := by
  have hrest := plain_append (plain_append (plain_pad2 (offset.natAbs / 3600))
    (by decide : Plain [':'])) (plain_pad2 (offset.natAbs / 60 % 60))
  unfold zone
  split_ifs
  · decide
  · exact plain_append (by decide : Plain ['-']) hrest
  · exact plain_append (by decide : Plain ['+']) hrest

theorem plain_dateTime (seconds : ℤ) : Plain (dateTime seconds) := by
  simp only [dateTime, pad4]
  repeat' apply plain_append
  all_goals first | exact plain_pad2 _ | decide

/-- No character of an instant is escaped. -/
theorem plain_rfc3339Nano {offset t : ℤ} {text : List Char} (h : rfc3339Nano offset t = some text) :
    Plain text := by
  unfold rfc3339Nano at h
  dsimp only at h
  split_ifs at h
  cases h
  exact plain_append (plain_append (plain_dateTime _) (plain_fraction _)) (plain_zone _)

/-! ## Bytes -/

/-- The character of a byte. -/
def charOf (b : UInt8) : Char := Char.ofNat b.toNat

theorem charOf_byte {c : Char} (h : c.toNat < 128) : charOf (byte c) = c := by
  have hbyte : (byte c).toNat = c.toNat := by
    rw [byte, UInt8.toNat_ofNat']
    omega
  rw [charOf, hbyte, Char.ofNat_toNat]

/-- A text of ASCII characters, from its bytes. -/
theorem map_charOf_byte {s : List Char} (h : ∀ c ∈ s, c.toNat < 128) :
    (s.map byte).map charOf = s := by
  rw [List.map_map]
  exact (List.map_congr_left fun c hc => charOf_byte (h c hc)).trans (List.map_id' s)

theorem ascii_intercalate {texts : List (List Char)} (h : ∀ t ∈ texts, ∀ c ∈ t, c.toNat < 128) :
    ∀ c ∈ List.intercalate [','] texts, c.toNat < 128 := by
  induction texts with
  | nil => simp
  | cons t texts ih =>
      obtain ⟨ht, htexts⟩ := List.forall_mem_cons.mp h
      by_cases hnil : texts = []
      · rw [hnil, List.intercalate_singleton]
        exact ht
      · rw [List.intercalate_cons_of_ne_nil hnil]
        simp only [List.mem_append, List.mem_singleton]
        rintro c ((hc | rfl) | hc)
        · exact ht c hc
        · decide
        · exact ih htexts c hc

theorem ascii_quote {t : List Char} (h : Plain t) : ∀ c ∈ quote t, c.toNat < 128 := by
  intro c hc
  simp only [quote, List.mem_cons, List.mem_append, List.not_mem_nil, or_false] at hc
  rcases hc with rfl | hc | rfl
  · decide
  · exact (h c hc).2.2.2
  · decide

theorem ascii_decimal (i : ℤ) : ∀ c ∈ decimal i, c.toNat < 128 := by
  have hdigit : ∀ c ∈ Nat.toDigits 10 i.natAbs, c.toNat < 128 := by
    intro c hc
    have hd := Nat.isDigit_of_mem_toDigits (by decide) (by decide) hc
    have hle := (Char.isDigit_iff_toNat.mp hd).2
    have hnine : '9'.toNat = 57 := rfl
    omega
  intro c hc
  unfold decimal at hc
  split_ifs at hc
  · rcases List.mem_cons.mp hc with rfl | hc
    · decide
    · exact hdigit c hc
  · exact hdigit c hc

theorem ascii_text {v : Scalar} (hv : v.Plain) : ∀ c ∈ v.text, c.toNat < 128 := by
  cases v with
  | string t => exact ascii_quote hv
  | int i => exact ascii_decimal i
  | boolean b =>
      have hplain : Plain (Scalar.boolean b).text := by cases b <;> decide
      exact fun c hc => (hplain c hc).2.2.2

theorem ascii_arrayText {es : List Members} (h : PlainArray es) :
    ∀ c ∈ arrayText es, c.toNat < 128 := by
  have hmember : ∀ ms ∈ es, ∀ m ∈ ms, ∀ c ∈ memberText m, c.toNat < 128 := by
    intro ms hms m hm c hc
    simp only [memberText, List.mem_append, List.mem_cons] at hc
    rcases hc with hc | rfl | hc
    · exact ascii_quote (h ms hms m hm).1 c hc
    · decide
    · exact ascii_text (h ms hms m hm).2 c hc
  have hobject : ∀ ms ∈ es, ∀ c ∈ objectText ms, c.toNat < 128 := by
    intro ms hms c hc
    simp only [objectText, List.mem_cons, List.mem_append, List.not_mem_nil, or_false] at hc
    rcases hc with rfl | hc | rfl
    · decide
    · refine ascii_intercalate ?_ c hc
      intro t ht
      obtain ⟨m, hm, rfl⟩ := List.mem_map.mp ht
      exact hmember ms hms m hm
    · decide
  intro c hc
  simp only [arrayText, List.mem_cons, List.mem_append, List.not_mem_nil, or_false] at hc
  rcases hc with rfl | hc | rfl
  · decide
  · refine ascii_intercalate ?_ c hc
    intro t ht
    obtain ⟨ms, hms, rfl⟩ := List.mem_map.mp ht
    exact hobject ms hms
  · decide

end JsonText

/-! ## json-c -/

open JsonText

/-- What is documented of json-c on such texts: it reads them, and its functions give the values
back, an integer within the bounds of 32 bits. -/
structure JsonC.Reads (c : JsonC) : Prop where
  parse : ∀ es, PlainArray es → c.tokenerParse ((arrayText es).map byte) = some (arrayJson es)
  getInt : ∀ i, c.getInt (.int i) = BitVec.ofInt 32 (max (-2 ^ 31) (min i (2 ^ 31 - 1)))
  getBoolean : ∀ b, c.getBoolean (.boolean b) = b
  getString : ∀ s, c.getString (.string s) = some s

/-- A json-c that reads such texts. -/
def JsonC.plain : JsonC :=
  { JsonC.reading [] with
    tokenerParse := fun text => (JsonText.read (text.map charOf)).map arrayJson }

theorem JsonC.plain_reads : JsonC.plain.Reads where
  parse es h := by
    change (JsonText.read (((arrayText es).map byte).map charOf)).map arrayJson = _
    rw [map_charOf_byte (ascii_arrayText h), read_arrayText h]
    rfl
  getInt _ := rfl
  getBoolean _ := rfl
  getString _ := rfl

end LingmoAuthenticate.Lib
