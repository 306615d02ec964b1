import Mathlib.Data.List.Induction
import LingmoAuthenticate.Lib.JsonC
import LingmoAuthenticate.Lib.Path
import LingmoAuthenticate.PamModule.Common

/-!
# The limits, as the PAM module reads them

`get_limits_info` has the reply of `GetLimits` printed into an array of 1024 bytes, whatever its
length, parses it, and writes each element to the entry of its type, whose position a loop without a
bound looks for. What C leaves undefined is `none`, and so is a loop that does not end.

* `Filled`: each entry has what the last element of its type says.
* `limits_parser_total_iff`: it ends, and fills the entries, exactly if the reply fits its array, no
  element has the flag zero, and each of a known type has an `unlockTime` that fits its own.
-/

namespace LingmoAuthenticate.PamModule

open Lib

/-! ## The reply -/

/-- `ud->limits`. -/
abbrev LimitEntries := Vector Limit supportAtType

/-- `strcpy`, or `sprintf` with `"%s"`, to a buffer of so many bytes; a null pointer cannot be read,
and a text that leaves no room for its NUL is written past the end. -/
def strcpy (size : ℕ) (src : Option (List UInt8)) : Option (List UInt8) :=
  src.bind fun text => if text.length < size then some text else none

/-- What is written of an element. -/
def limitOf (c : JsonC) (jobj : Json) : Option Limit := do
  let unlockTime ← strcpy maxBufSize (c.getString (jobj.value "unlockTime"))
  return { maxTries := c.getInt (jobj.value "maxTries"),
           numFailures := c.getInt (jobj.value "numFailures"),
           locked := c.getBoolean (jobj.value "locked"),
           unlockTime }

/-- The flag of an element; it is zero without one. -/
def flagOf (c : JsonC) (jobj : Json) : BitVec 32 := c.getInt (jobj.value "flag")

/-- A round of the loop over the elements. -/
def limitRound (c : JsonC) (limits : LimitEntries) (jobj : Json) : Option LimitEntries := do
  let typeIndex ← typeToIndex (flagOf c jobj)
  if h : typeIndex < supportAtType then return limits.set typeIndex (← limitOf c jobj)
  else return limits

/-- The text of the reply, in the array of the caller; the call may fail, which leaves it empty, and a
text that does not fit is written past its end.
Source: `dbus.c`, `dbus_method_get_limits`. -/
def dbusMethodGetLimits (reply : Option (List UInt8)) : Option (Option (List UInt8)) :=
  match reply with
  | none => some none
  | some res => (strcpy limitsBufSize (some res)).map some

/-- `reply` is the text that `GetLimits` gives, if the call succeeds; it may be of any length.
Source: `utils.c`, `get_limits_info`. -/
def getLimitsInfo (c : JsonC) (reply : Option (List UInt8)) (limits : LimitEntries) :
    Option LimitEntries := do
  match (← dbusMethodGetLimits reply).bind c.tokenerParse with
  | none => return limits
  | some parsedJson => (← parsedJson.elements?).foldlM (limitRound c) limits

/-! ## What the entries are to have -/

/-- The last element of the type at a position. -/
def lastOf (c : JsonC) (es : List Json) (i : ℕ) : Option Json :=
  es.reverse.find? fun e => IsLowest (flagOf c e) i

/-- **Each entry has what the last element of its type says**, and the others are as they were. -/
def Filled (c : JsonC) (es : List Json) (limits limits' : LimitEntries) : Prop :=
  ∀ i (hi : i < supportAtType),
    match lastOf c es i with
    | none => limits'[i] = limits[i]
    | some e => limitOf c e = some limits'[i]

/-- An element that does not stop the parser: its flag is not zero, and if the type is one of those
that are known, `unlockTime` is not null and fits its buffer. -/
def Parsable (c : JsonC) (e : Json) : Prop :=
  flagOf c e ≠ 0#32 ∧ ((∃ i < supportAtType, (flagOf c e).getLsbD i = true) →
    ∃ text, c.getString (e.value "unlockTime") = some text ∧ text.length < maxBufSize)

/-! ## The loop -/

section loop

variable {c : JsonC} {limits limits' : LimitEntries} {e : Json} {es : List Json}

theorem limitOf_isSome : (limitOf c e).isSome ↔
    ∃ text, c.getString (e.value "unlockTime") = some text ∧ text.length < maxBufSize := by
  rw [limitOf, strcpy]
  cases c.getString (e.value "unlockTime") with
  | none => simp
  | some text =>
      by_cases hlt : text.length < maxBufSize
      · simp [hlt]
      · simp [hlt]

/-- A type is known exactly if its position is. -/
theorem exists_bit_iff {authType : BitVec 32} {i n : ℕ} (h : IsLowest authType i) :
    (∃ j < n, authType.getLsbD j = true) ↔ i < n := by
  constructor
  · rintro ⟨j, hj, hbit⟩
    by_contra hle
    have hlow := h.2 j (by omega)
    rw [hbit] at hlow
    cases hlow
  · exact fun hi => ⟨i, hi, h.1⟩

/-- **A round**: what it needs, and what it writes. -/
theorem limitRound_eq_some : limitRound c limits e = some limits' ↔
    Parsable c e ∧ ∀ i (hi : i < supportAtType),
      if IsLowest (flagOf c e) i then limitOf c e = some limits'[i]
      else limits'[i] = limits[i] := by
  cases hindex : typeToIndex (flagOf c e) with
  | none =>
      have hzero : ¬ flagOf c e ≠ 0#32 := by
        rw [← typeToIndex_isSome, hindex]
        simp
      simp [limitRound, hindex, Parsable, hzero]
  | some k =>
      have hk : IsLowest (flagOf c e) k := typeToIndex_eq_some.mp hindex
      have hne : flagOf c e ≠ 0#32 := typeToIndex_isSome.mp (by rw [hindex]; rfl)
      have hlow : ∀ i, IsLowest (flagOf c e) i ↔ i = k := by
        intro i
        rw [← typeToIndex_eq_some, hindex, Option.some.injEq, eq_comm]
      rw [Parsable, exists_bit_iff hk, ← limitOf_isSome]
      simp only [limitRound, hindex, Option.bind_eq_bind, Option.bind_some, hlow, hne, ne_eq,
        not_false_eq_true, true_and]
      by_cases hlt : k < supportAtType
      · rw [dif_pos hlt]
        cases hlimit : limitOf c e with
        | none => simp [hlt]
        | some l =>
            simp only [Option.bind_some, Option.pure_def, Option.some.injEq, Option.isSome_some,
              implies_true, true_and]
            constructor
            · rintro rfl i hi
              by_cases hik : i = k
              · subst hik
                rw [if_pos rfl, Vector.getElem_set_self]
              · rw [if_neg hik, Vector.getElem_set_ne _ _ (Ne.symm hik)]
            · intro h
              apply Vector.ext
              intro i hi
              have hentry := h i hi
              by_cases hik : i = k
              · subst hik
                rw [if_pos rfl] at hentry
                rw [Vector.getElem_set_self, hentry]
              · rw [if_neg hik] at hentry
                rw [Vector.getElem_set_ne _ _ (Ne.symm hik), hentry]
      · rw [dif_neg hlt, Option.pure_def, Option.some.injEq]
        constructor
        · rintro rfl
          refine ⟨fun h => absurd h hlt, ?_⟩
          intro i hi
          rw [if_neg (by omega)]
        · rintro ⟨-, h⟩
          apply Vector.ext
          intro i hi
          have hentry := h i hi
          rw [if_neg (by omega)] at hentry
          exact hentry.symm

/-- A round ends exactly if its element does not stop it. -/
theorem limitRound_isSome : (limitRound c limits e).isSome ↔ Parsable c e := by
  constructor
  · intro h
    obtain ⟨limits', hround⟩ := Option.isSome_iff_exists.mp h
    exact (limitRound_eq_some.mp hround).1
  · rintro ⟨hne, htext⟩
    obtain ⟨k, hindex⟩ := Option.isSome_iff_exists.mp (typeToIndex_isSome.mpr hne)
    by_cases hlt : k < supportAtType
    · obtain ⟨l, hl⟩ := Option.isSome_iff_exists.mp
        (limitOf_isSome.mpr (htext ⟨k, hlt, (typeToIndex_eq_some.mp hindex).1⟩))
      simp [limitRound, hindex, hlt, hl]
    · simp [limitRound, hindex, hlt]

/-- A loop that ends has met no element that stops it, and has filled the entries. -/
theorem filled_of_foldlM (h : es.foldlM (limitRound c) limits = some limits') :
    (∀ e ∈ es, Parsable c e) ∧ Filled c es limits limits' := by
  induction es using List.reverseRecOn generalizing limits' with
  | nil =>
      cases h
      exact ⟨fun e he => absurd he List.not_mem_nil, fun i hi => rfl⟩
  | append_singleton es e ih =>
      rw [List.foldlM_append, Option.bind_eq_bind, Option.bind_eq_some_iff] at h
      obtain ⟨mid, hmid, hlast⟩ := h
      obtain ⟨hparsable, hfilled⟩ := ih hmid
      rw [List.foldlM_cons, Option.bind_eq_bind, Option.bind_eq_some_iff] at hlast
      obtain ⟨limits'', hround, hnil⟩ := hlast
      cases hnil
      obtain ⟨he, hentries⟩ := limitRound_eq_some.mp hround
      constructor
      · intro e' he'
        rcases List.mem_append.mp he' with he' | he'
        · exact hparsable e' he'
        · rw [List.mem_singleton.mp he']
          exact he
      · intro i hi
        have hentry := hentries i hi
        rw [lastOf, List.reverse_append, List.reverse_singleton, List.singleton_append,
          List.find?_cons]
        by_cases hlow : IsLowest (flagOf c e) i
        · rw [if_pos hlow] at hentry
          simpa [hlow] using hentry
        · rw [if_neg hlow] at hentry
          simpa [hlow, hentry, lastOf] using hfilled i hi

/-- A loop that meets no element that stops it ends. -/
theorem foldlM_limitRound_isSome (h : ∀ e ∈ es, Parsable c e) :
    (es.foldlM (limitRound c) limits).isSome := by
  induction es generalizing limits with
  | nil => rfl
  | cons e es ih =>
      obtain ⟨he, hes⟩ := List.forall_mem_cons.mp h
      have hround : (limitRound c limits e).isSome := limitRound_isSome.mpr he
      obtain ⟨mid, hmid⟩ := Option.isSome_iff_exists.mp hround
      rw [List.foldlM_cons, hmid]
      exact ih hes

/-- A reply that is an array, and fits, is gone through. -/
theorem getLimitsInfo_eq {buff : List UInt8} (hfits : buff.length < limitsBufSize)
    (hreply : c.tokenerParse buff = some (.array es)) :
    getLimitsInfo c (some buff) limits = es.foldlM (limitRound c) limits := by
  rw [getLimitsInfo, dbusMethodGetLimits, strcpy, Option.bind_some, if_pos hfits,
    Option.map_some, Option.bind_eq_bind, Option.bind_some, Option.bind_some, hreply]
  rfl

/-- A reply that does not fit is written past the end of the array. -/
theorem getLimitsInfo_eq_none {buff : List UInt8} (hlong : limitsBufSize ≤ buff.length) :
    getLimitsInfo c (some buff) limits = none := by
  rw [getLimitsInfo, dbusMethodGetLimits, strcpy, Option.bind_some, if_neg (not_lt.mpr hlong)]
  rfl

end loop

/-- **The parser of the limits**: for every reply that is an array, it stays within its buffers, ends,
and writes each entry from the last element of its type, exactly if the reply fits the array that it
is printed into, each element has a flag that is not zero, and each element of a known type an
`unlockTime` that is not null and fits. -/
theorem limits_parser_total_iff (c : JsonC) {buff : List UInt8} {es : List Json}
    (hreply : c.tokenerParse buff = some (.array es)) (limits : LimitEntries) :
    (∃ limits', getLimitsInfo c (some buff) limits = some limits' ∧
      Filled c es limits limits') ↔
      buff.length < limitsBufSize ∧ ∀ e ∈ es, Parsable c e := by
  rcases lt_or_ge buff.length limitsBufSize with hfits | hlong
  · rw [getLimitsInfo_eq hfits hreply]
    constructor
    · rintro ⟨limits', h, -⟩
      exact ⟨hfits, (filled_of_foldlM h).1⟩
    · rintro ⟨-, h⟩
      obtain ⟨limits', hlimits⟩ := Option.isSome_iff_exists.mp (foldlM_limitRound_isSome h)
      exact ⟨limits', hlimits, (filled_of_foldlM hlimits).2⟩
  · constructor
    · rintro ⟨limits', h, -⟩
      rw [getLimitsInfo_eq_none hlong] at h
      cases h
    · rintro ⟨hfits, -⟩
      exact absurd hfits (not_lt.mpr hlong)

/-- No limits yet. -/
def noLimits : LimitEntries := Vector.replicate supportAtType ⟨0, 0, false, []⟩

/-- A reply with the limit of the password, and its element. -/
def passwordReply : List UInt8 :=
  bytes "[\x7b\"flag\":1,\"maxTries\":3,\"numFailures\":0,\"locked\":false,\"unlockTime\":\"\"\x7d]"

@[inherit_doc passwordReply]
def passwordElement : Json :=
  .object [("flag", .int 1), ("maxTries", .int 3), ("numFailures", .int 0),
    ("locked", .boolean false), ("unlockTime", .string [])]

/-- The limit of the password is read. -/
theorem limits_parser_total_password :
    ∃ limits', getLimitsInfo (.reading [(passwordReply, .array [passwordElement])])
      (some passwordReply) noLimits = some limits' ∧
      Filled (.reading [(passwordReply, .array [passwordElement])]) [passwordElement]
        noLimits limits' :=
  (limits_parser_total_iff _ (JsonC.reading_parse _ _) noLimits).mpr ⟨by decide, by
    intro e he
    rw [List.mem_singleton.mp he]
    exact ⟨by decide, fun _ => ⟨[], rfl, by decide⟩⟩⟩

/-- **An element without a flag**: the loop that looks for its bit does not end. -/
theorem no_flag_no_end :
    typeToIndex 0#32 = none ∧
    ¬ ∀ (c : JsonC) (buff : List UInt8) (es : List Json), c.tokenerParse buff = some (.array es) →
      ∀ limits, ∃ limits', getLimitsInfo c (some buff) limits = some limits' ∧
        Filled c es limits limits' := by
  refine ⟨by decide, ?_⟩
  intro h
  have hends := h (.reading [(bytes "[\x7b\x7d]", .array [.object []])])
    (bytes "[\x7b\x7d]") [.object []] (JsonC.reading_parse _ _) noLimits
  obtain ⟨limits', hends, -⟩ := hends
  rw [getLimitsInfo_eq (by decide) (JsonC.reading_parse _ _)] at hends
  exact ((filled_of_foldlM hends).1 (.object []) List.mem_cons_self).1 rfl

end LingmoAuthenticate.PamModule
