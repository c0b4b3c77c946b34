import ApiSnippets.Entries
/-!
# JSON values

A JSON value with the members of objects in their order. Integers have any
size and are kept apart from the numbers written with a fraction or an
exponent.
-/

namespace ApiSnippets

/-- A JSON value. -/
inductive Json where
  | null
  | bool (b : Bool)
  | int (n : Int)
  | num (x : Float)
  | str (s : String)
  | arr (items : List Json)
  | obj (members : List (String × Json))
  deriving Inhabited

namespace Json

/-- The value of a member of an object. -/
def get? (name : String) : Json → Option Json
  | obj members => members.lookup name
  | _ => none

/-- The text of a string value. -/
def text? : Json → Option String
  | str s => some s
  | _ => none

end Json

end ApiSnippets
