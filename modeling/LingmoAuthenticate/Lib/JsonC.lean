import Mathlib.Algebra.Group.Int.Defs
import Mathlib.Tactic.Lemma

/-!
# Values of json-c

A C program sees a JSON value through a pointer, and the value null is the null pointer. What json-c
makes of a text, of a number and of a string is a parameter: `JsonC` has the functions, with what is
documented about null.

* `objectGetEx`, `value`: a member of an object, and what a variable has after it was asked for.
* `elements?`: the elements of an array; json-c asserts that there is one.
-/

namespace LingmoAuthenticate.Lib

/-- A JSON value as json-c keeps it; `null` is the null pointer. A string has the bytes of its C
string, and a double those of its representation, since nothing here computes with it. -/
inductive Json where
  | null
  | boolean (b : Bool)
  | int (i : ℤ)
  | double (bits : UInt64)
  | string (s : List UInt8)
  | array (elements : List Json)
  | object (members : List (String × Json))

namespace Json

/-- `json_object_object_get_ex`: the member, if the value is an object that has it. -/
def objectGetEx (j : Json) (key : String) : Option Json :=
  match j with
  | object members => (members.find? fun m => m.1 = key).map Prod.snd
  | _ => none

/-- The variable after `json_object_object_get_ex`, which is null without a member. -/
def value (j : Json) (key : String) : Json := (j.objectGetEx key).getD null

/-- What `json_object_array_length` and `json_object_array_get_idx` go over; `none` where there is
no array, which they assert. -/
def elements? (j : Json) : Option (List Json) :=
  match j with
  | array elements => some elements
  | _ => none

end Json

/-- The functions of json-c, as far as they are used, with what the documentation says of a null
pointer: it is read as zero, and it alone has no string. -/
structure JsonC where
  /-- `json_tokener_parse_ex`; `none` where the tokener has an error. -/
  tokenerParse : List UInt8 → Option Json
  /-- `json_object_get_int`. -/
  getInt : Json → BitVec 32
  /-- `json_object_get_boolean`. -/
  getBoolean : Json → Bool
  /-- `json_object_get_string`; `none` is the null pointer. -/
  getString : Json → Option (List UInt8)
  getInt_null : getInt .null = 0
  getString_eq_none : ∀ j, getString j = none ↔ j = .null

/-- A json-c that reads the texts that it is given, and knows numbers and strings. -/
def JsonC.reading (texts : List (List UInt8 × Json)) : JsonC where
  tokenerParse text := (texts.find? fun t => t.1 = text).map Prod.snd
  getInt j := match j with
    | .int i => BitVec.ofInt 32 (max (-2 ^ 31) (min i (2 ^ 31 - 1)))
    | _ => 0
  getBoolean j := match j with
    | .boolean b => b
    | _ => false
  getString j := match j with
    | .null => none
    | .string s => some s
    | _ => some []
  getInt_null := rfl
  getString_eq_none j := by cases j <;> simp

theorem JsonC.reading_parse (text : List UInt8) (j : Json) :
    (JsonC.reading [(text, j)]).tokenerParse text = some j := by
  simp [reading]

end LingmoAuthenticate.Lib
