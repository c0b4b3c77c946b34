import ApiSnippets.Code.Dialect
/-!
# Local variables

Names for the variables of a snippet, no two of which are equal. A name is
cased and made safe first; if it is taken, the first free number is put
behind it.
-/

namespace ApiSnippets

namespace Locals

/-- A name with a number behind it, from one on. -/
def numbered (base : String) (n : Nat) : String :=
  base ++ toString (n + 1)

/-- The first free name among a base and its numbered forms, as many as are
needed to find one. -/
def firstFree (taken : List String) (base : String) : String :=
  ((base :: (List.range taken.length).map (numbered base)).find? fun name =>
    !taken.contains name).getD base

/-- The name to begin with for a hint. -/
def base (d : Dialect) (hint : String) : String :=
  let name := d.variableCase hint
  d.escape (if name.isEmpty then "value" else name)

/-- A new name for a hint, and the names taken with it. -/
def allocate (d : Dialect) (taken : List String) (hint : String) : String × List String :=
  let name := firstFree taken (base d hint)
  (name, name :: taken)

/-- Names for a list of hints. -/
def allocateAll (d : Dialect) : List String → List String → List String
  | _, [] => []
  | taken, hint :: hints =>
    let (name, taken) := allocate d taken hint
    name :: allocateAll d taken hints

end Locals

end ApiSnippets
