import Mathlib
/-!
# JSON values

What the programs read of the documents they are given: fields, texts and
arrays.
-/
namespace Keck.Lib

/-- A JSON value; an object's fields have distinct names. -/
inductive Json where
  | null
  | bool (b : Bool)
  | num (n : ℚ)
  | str (s : String)
  | arr (xs : List Json)
  | obj (fields : List (String × Json))

namespace Json

def get (key : String) : Json → Option Json
  | obj fields => fields.lookup key
  | _ => none

def asStr : Json → Option String
  | str s => some s
  | _ => none

def asArray : Json → Option (List Json)
  | arr xs => some xs
  | _ => none

end Json

end Keck.Lib
