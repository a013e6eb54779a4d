import Mathlib.Data.List.Basic

/-!
# JSON values

The values that a JSON document can hold. A number is kept as it is written.
-/

/-- A value of JSON; a number is the text that writes it. -/
inductive Json
  | null
  | bool (value : Bool)
  | number (text : String)
  | string (text : String)
  | array (items : List Json)
  | object (fields : List (String × Json))

namespace Json

/-- The text of a string. -/
def text? : Json → Option String
  | string text => some text
  | _ => none

end Json
