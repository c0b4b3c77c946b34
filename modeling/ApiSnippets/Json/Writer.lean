import ApiSnippets.Json
import ApiSnippets.Number.Text
import ApiSnippets.Text.Quoted
/-!
# Writing JSON

Three layouts: on one line, with one member or item per line, and the latter
with characters beyond ASCII as they are. Empty containers take no line of
their own.
-/

namespace ApiSnippets

namespace Json

/-- The text of a double: the numbers without digits have words. -/
def floatWord (x : Float) : String :=
  ({ Number.plainLayout with infinite := "Infinity", notANumber := "NaN" } : Number.Layout).writeBits
    x.toBits.toNat

/-- How strings are written, and what stands between the parts of a
container. -/
structure Spacing where
  quote : String → String
  /-- Written after the opening bracket and between items, given the depth. -/
  lineBreak : Nat → String
  /-- Written between items before the line break. -/
  comma : String
  /-- Written between a name and its value. -/
  colon : String

/-- Everything on one line. -/
def Spacing.oneLine : Spacing :=
  ⟨Text.asciiQuoted, fun _ => "", ", ", ": "⟩

/-- A line per item, indented by two spaces for each level. -/
def Spacing.indented (quote : String → String) : Spacing :=
  ⟨quote, fun depth => "\n" ++ String.ofList (List.replicate (2 * depth) ' '), ",", ": "⟩

mutual

/-- The text of a value at a depth. -/
def writeAt (sp : Spacing) (depth : Nat) : Json → String
  | null => "null"
  | bool true => "true"
  | bool false => "false"
  | int n => toString n
  | num x => floatWord x
  | str s => sp.quote s
  | arr [] => "[]"
  | arr (item :: items) =>
    "[" ++ sp.lineBreak (depth + 1) ++ writeAt sp (depth + 1) item ++
      writeItems sp (depth + 1) items ++ sp.lineBreak depth ++ "]"
  | obj [] => "\x7b\x7d"
  | obj ((name, v) :: members) =>
    "\x7b" ++ sp.lineBreak (depth + 1) ++ sp.quote name ++ sp.colon ++
      writeAt sp (depth + 1) v ++ writeMembers sp (depth + 1) members ++ sp.lineBreak depth ++
      "\x7d"

/-- The items after the first. -/
def writeItems (sp : Spacing) (depth : Nat) : List Json → String
  | [] => ""
  | item :: items =>
    sp.comma ++ sp.lineBreak depth ++ writeAt sp depth item ++ writeItems sp depth items

/-- The members after the first. -/
def writeMembers (sp : Spacing) (depth : Nat) : List (String × Json) → String
  | [] => ""
  | (name, v) :: members =>
    sp.comma ++ sp.lineBreak depth ++ sp.quote name ++ sp.colon ++
      writeAt sp depth v ++ writeMembers sp depth members

end

/-- The value on one line. -/
def compact (v : Json) : String :=
  writeAt .oneLine 0 v

/-- The value in ASCII with a line per item and member. -/
def pretty (v : Json) : String :=
  writeAt (.indented Text.asciiQuoted) 0 v

/-- The value with a line per item and member, and with characters beyond
ASCII as they are. -/
def prettyPlain (v : Json) : String :=
  writeAt (.indented Text.doubleQuoted) 0 v

end Json

end ApiSnippets
