import Mathlib.Data.List.Forall2
import LingmoAuthenticate.Lib.JsonC
import LingmoAuthenticate.Lib.Path

/-!
# The limits, as the client library reads them

`limit_json_deal` makes an array of `da_limit_info` from what `GetLimits` replies. It says how long
the array is before it reads the elements, leaves the loop at the first element without one of the
keys, and passes over null. Its callers read as many entries as it says. What is not written is
`none`; so is what C leaves undefined.

* `WrittenFrom`: everything in an entry is written, from one element.
* `limits_written_iff`: every entry is written from its element exactly if the text is an array, and
  each of its elements has the keys, with a `type` and an `unlockTime` that are not null.
* `daGetAuthLimitInfo_eq`: of entries that are written, the search finds the first of a flag.
-/

namespace LingmoAuthenticate.AuthClient

open Lib

/-- An entry in memory: what has been written of it, where `none` is what `malloc` has left there.
The texts have at most 63 bytes, since the arrays have 64. Source: `auth.h`, `da_limit_info`. -/
structure DaLimitInfo where
  type : Option (List UInt8)
  locked : Option Bool
  maxTries : Option (BitVec 32)
  failNum : Option (BitVec 32)
  unlockTime : Option (List UInt8)
  flag : Option (BitVec 32)
  unlockSecs : Option (BitVec 32)
  deriving DecidableEq, Repr

/-- An entry as `malloc` gives it. -/
def DaLimitInfo.fresh : DaLimitInfo := ⟨none, none, none, none, none, none, none⟩

/-- `g_strlcpy` to a buffer of 64 bytes; a null pointer is refused, and nothing is written. -/
def gStrlcpy (dst : Option (List UInt8)) (src : Option (List UInt8)) : Option (List UInt8) :=
  match src with
  | none => dst
  | some text => some (text.take 63)

/-- The keys of an element, in the order in which they are asked for. -/
def limitKeys : List String :=
  ["type", "flag", "unlockSecs", "maxTries", "numFailures", "locked", "unlockTime"]

/-- The element has all of the keys. -/
def HasKeys (e : Json) : Prop := ∀ key ∈ limitKeys, (e.objectGetEx key).isSome

instance (e : Json) : Decidable (HasKeys e) :=
  inferInstanceAs (Decidable (∀ key ∈ limitKeys, (e.objectGetEx key).isSome = true))

/-- What an element with all of the keys makes of its entry. -/
def writeLimit (c : JsonC) (eleJson : Json) (limit : DaLimitInfo) : DaLimitInfo where
  type := gStrlcpy limit.type (c.getString (eleJson.value "type"))
  flag := some (c.getInt (eleJson.value "flag"))
  unlockSecs := some (c.getInt (eleJson.value "unlockSecs"))
  maxTries := some (c.getInt (eleJson.value "maxTries"))
  failNum := some (c.getInt (eleJson.value "numFailures"))
  locked := some (c.getBoolean (eleJson.value "locked"))
  unlockTime := gStrlcpy limit.unlockTime (c.getString (eleJson.value "unlockTime"))

/-- The loop from an element on, with the entries that belong to the elements: what it returns, and
what the entries come to. -/
def dealLoop (c : JsonC) : List Json → List DaLimitInfo → ℤ × List DaLimitInfo
  | eleJson :: es, limit :: limits =>
      match eleJson with
      | .null => (dealLoop c es limits).map id (limit :: ·)
      | eleJson =>
          if HasKeys eleJson then
            (dealLoop c es limits).map id (writeLimit c eleJson limit :: ·)
          else (-1, limit :: limits)
  | _, limits => (0, limits)

/-- What is returned, and the array; `*limit_len` is its length.
Source: `auth.c`, `limit_json_deal`, of a text. -/
def limitJsonDeal (c : JsonC) (text : List UInt8) : Option (ℤ × List DaLimitInfo) := do
  let es ← ((c.tokenerParse text).getD .null).elements?
  return dealLoop c es (List.replicate es.length .fresh)

/-- Everything in an entry is written, from the members of one element: the two texts as far as they
fit, the numbers and the lock as json-c reads them. -/
structure WrittenFrom (c : JsonC) (e : Json) (limit : DaLimitInfo) : Prop where
  type : ∃ text, c.getString (e.value "type") = some text ∧ limit.type = some (text.take 63)
  flag : limit.flag = some (c.getInt (e.value "flag"))
  unlockSecs : limit.unlockSecs = some (c.getInt (e.value "unlockSecs"))
  maxTries : limit.maxTries = some (c.getInt (e.value "maxTries"))
  failNum : limit.failNum = some (c.getInt (e.value "numFailures"))
  locked : limit.locked = some (c.getBoolean (e.value "locked"))
  unlockTime : ∃ text, c.getString (e.value "unlockTime") = some text ∧
    limit.unlockTime = some (text.take 63)

/-- **The callers read what has been written**: the text is an array, and the function returns an
entry for each element that is written from it. -/
def Written (c : JsonC) (text : List UInt8) : Prop :=
  ∃ es errorRet limits, c.tokenerParse text = some (.array es) ∧
    limitJsonDeal c text = some (errorRet, limits) ∧ List.Forall₂ (WrittenFrom c) es limits

/-- An element with all of the keys, and with texts where texts are copied. -/
def Complete (e : Json) : Prop :=
  HasKeys e ∧ e.value "type" ≠ .null ∧ e.value "unlockTime" ≠ .null

/-! ## The loop -/

section loop

variable {c : JsonC} {e : Json} {es : List Json} {limit : DaLimitInfo}

theorem not_hasKeys_null : ¬ HasKeys .null := by
  intro h
  exact absurd (h "type" (by decide)) (by decide)

theorem not_writtenFrom_fresh : ¬ WrittenFrom c e .fresh := by
  intro h
  cases h.flag

/-- An element with all of the keys is written to its entry, and the loop goes on. -/
theorem dealLoop_of_hasKeys (h : HasKeys e) (limits : List DaLimitInfo) :
    dealLoop c (e :: es) (limit :: limits) =
      (dealLoop c es limits).map id (writeLimit c e limit :: ·) := by
  cases e with
  | null => exact absurd h not_hasKeys_null
  | _ => exact if_pos h

/-- The entry of an element that lacks a key stays as it is: null is passed over, and any other
element ends the loop. -/
theorem dealLoop_of_not_hasKeys (h : ¬ HasKeys e) (limits : List DaLimitInfo) :
    ∃ limits', (dealLoop c (e :: es) (limit :: limits)).2 = limit :: limits' := by
  cases e with
  | null => exact ⟨_, rfl⟩
  | _ =>
      refine ⟨limits, ?_⟩
      rw [dealLoop, if_neg h]
      exact nofun

theorem writeLimit_writtenFrom (h : Complete e) : WrittenFrom c e (writeLimit c e limit) := by
  have htext : ∀ j, j ≠ .null → ∀ dst, ∃ text, c.getString j = some text ∧
      gStrlcpy dst (c.getString j) = some (text.take 63) := by
    intro j hj dst
    cases htext : c.getString j with
    | none => exact absurd ((c.getString_eq_none j).mp htext) hj
    | some text => exact ⟨text, rfl, rfl⟩
  exact ⟨htext _ h.2.1 _, rfl, rfl, rfl, rfl, rfl, htext _ h.2.2 _⟩

/-- An entry that is written is written from two texts. -/
theorem WrittenFrom.complete (h : WrittenFrom c e limit) (hkeys : HasKeys e) : Complete e := by
  obtain ⟨text, htext, -⟩ := h.type
  obtain ⟨text', htext', -⟩ := h.unlockTime
  refine ⟨hkeys, ?_, ?_⟩
  · intro hnull
    rw [(c.getString_eq_none _).mpr hnull] at htext
    cases htext
  · intro hnull
    rw [(c.getString_eq_none _).mpr hnull] at htext'
    cases htext'

/-- **The loop over elements that are complete** writes each of the entries. -/
theorem dealLoop_written (h : ∀ e ∈ es, Complete e) :
    List.Forall₂ (WrittenFrom c) es (dealLoop c es (List.replicate es.length .fresh)).2 := by
  induction es with
  | nil => exact .nil
  | cons e es ih =>
      obtain ⟨he, hes⟩ := List.forall_mem_cons.mp h
      rw [List.length_cons, List.replicate_succ, dealLoop_of_hasKeys he.1]
      exact .cons (writeLimit_writtenFrom he) (ih hes)

/-- **The loop that writes each of the entries** went over elements that are complete: the entry of
an element that lacks a key is what `malloc` gave. -/
theorem complete_of_dealLoop_written
    (h : List.Forall₂ (WrittenFrom c) es (dealLoop c es (List.replicate es.length .fresh)).2) :
    ∀ e ∈ es, Complete e := by
  induction es with
  | nil => exact List.forall_mem_nil _
  | cons e es ih =>
      rw [List.length_cons, List.replicate_succ] at h
      by_cases hkeys : HasKeys e
      · rw [dealLoop_of_hasKeys hkeys] at h
        obtain ⟨hhead, hrest⟩ := List.forall₂_cons.mp h
        exact List.forall_mem_cons.mpr ⟨hhead.complete hkeys, ih hrest⟩
      · obtain ⟨limits', hlimits'⟩ : ∃ limits', (dealLoop c (e :: es)
            (.fresh :: List.replicate es.length .fresh)).2 = .fresh :: limits' :=
          dealLoop_of_not_hasKeys hkeys _
        rw [hlimits'] at h
        exact absurd (List.forall₂_cons.mp h).1 not_writtenFrom_fresh

end loop

/-- **The callers read what has been written exactly if** the text is an array whose elements are
complete. -/
theorem limits_written_iff (c : JsonC) (text : List UInt8) :
    Written c text ↔ ∃ es, c.tokenerParse text = some (.array es) ∧ ∀ e ∈ es, Complete e := by
  have hdeal : ∀ es, c.tokenerParse text = some (.array es) → limitJsonDeal c text =
      some (dealLoop c es (List.replicate es.length .fresh)) := by
    intro es hparse
    rw [limitJsonDeal, hparse]
    rfl
  constructor
  · rintro ⟨es, errorRet, limits, hparse, hlimits, hwritten⟩
    rw [hdeal es hparse, Option.some.injEq] at hlimits
    refine ⟨es, hparse, complete_of_dealLoop_written (c := c) ?_⟩
    rwa [hlimits]
  · rintro ⟨es, hparse, hcomplete⟩
    exact ⟨es, _, _, hparse, hdeal es hparse, dealLoop_written hcomplete⟩

/-- **A limit without the other keys**: there is an entry, and nothing in it is written; of a text
that is no JSON, a null array is asked for its length. -/
theorem limit_not_written :
    let text := bytes "[\x7b\"type\":\"password\"\x7d]"
    let c := JsonC.reading [(text, .array [.object [("type", .string (bytes "password"))]])]
    limitJsonDeal c text = some (-1, [.fresh]) ∧ limitJsonDeal c (bytes "[") = none ∧
      ¬ Written c text := by
  refine ⟨by decide, by decide, ?_⟩
  rw [limits_written_iff]
  rintro ⟨es, hparse, hcomplete⟩
  rw [JsonC.reading_parse, Option.some.injEq, Json.array.injEq] at hparse
  exact absurd (hcomplete _ (hparse ▸ List.mem_cons_self)).1 (by decide)

/-! ## The callers -/

/-- Source: `auth.c`, `is_valid_auth_flag`; the flags of a type are single bits. -/
def isValidAuthFlag (authFlag : BitVec 32) : Bool :=
  authFlag ∈ [1#32, 2#32, 8#32, 4#32, 32#32, 64#32, 16#32]

/-- The search for a flag, from an entry on; to read a flag that is not written is undefined. -/
def searchFlag (authFlag : BitVec 32) : List DaLimitInfo → Option (Option DaLimitInfo)
  | [] => some none
  | limit :: dli => do
      if (← limit.flag) = authFlag then return some limit else searchFlag authFlag dli

/-- Source: `auth.c`, `da_get_auth_limit_info`, of an array that is not null. -/
def daGetAuthLimitInfo (dli : List DaLimitInfo) (authFlag : BitVec 32) :
    Option (Option DaLimitInfo) :=
  if isValidAuthFlag authFlag then searchFlag authFlag dli else some none

/-- The entry of a flag, which is copied; what `da_get_limits` returns is not looked at.
Source: `text.c`, `get_limit_info_priv`, of a call that succeeds. -/
def getLimitInfoPriv (c : JsonC) (outLimits : List UInt8) (authFlag : BitVec 32) :
    Option (Option DaLimitInfo) := do
  let (_, dli) ← limitJsonDeal c outLimits
  daGetAuthLimitInfo dli authFlag

/-- **Of entries that are written**, the search finds the first of the flag. -/
theorem daGetAuthLimitInfo_eq {c : JsonC} {es : List Json} {dli : List DaLimitInfo}
    (h : List.Forall₂ (WrittenFrom c) es dli) {authFlag : BitVec 32}
    (hvalid : isValidAuthFlag authFlag = true) :
    daGetAuthLimitInfo dli authFlag =
      some (dli.find? fun limit => limit.flag = some authFlag) := by
  rw [daGetAuthLimitInfo, if_pos hvalid]
  induction h with
  | nil => rfl
  | @cons e limit es dli hlimit hrest ih =>
      rw [searchFlag, hlimit.flag, List.find?_cons, hlimit.flag, ih]
      by_cases hflag : c.getInt (e.value "flag") = authFlag
      · simp [hflag]
      · simp [hflag]

end LingmoAuthenticate.AuthClient
