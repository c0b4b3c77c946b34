import ApiSnippets.Fault
import ApiSnippets.Number.Text
import ApiSnippets.Schema.Shape
import ApiSnippets.Text.Nesting
import ApiSnippets.Text.Percent
/-!
# Query options

A query string as typed options. An option's name is canonical: decoded,
without its dollar signs and with a lower-case first character. Its value is
typed by the name when it is a system option, else by the parameter the
operation declares, else by its own looks.

Options keep the order of their first appearance; one that repeats takes its
last value.
-/

namespace ApiSnippets

/-- The value of an option. -/
inductive OptionValue where
  | flag (b : Bool)
  | int (n : Int)
  | num (x : Float)
  | text (s : String)
  | list (items : List String)

/-- An option of a query string. -/
structure QueryOption where
  name : String
  rawName : String
  system : Bool := false
  kind : SchemaKind := .string
  value : OptionValue

namespace Query

/-! ## Names -/

/-- The canonical form of a written name. -/
def canonicalChars (raw : List Char) : List Char :=
  Text.decapitalize ((Text.strip (Text.queryDecode raw)).dropWhile (· == '$'))

/-- The canonical form of a written name. -/
def canonicalName (raw : String) : String :=
  String.ofList (canonicalChars raw.toList)

/-! ## Values -/

/-- The pieces of a list value, which commas outside parentheses and quotes
separate, trimmed. Empty pieces are dropped, and so are pieces that begin with
a parenthesis. -/
def splitTopLevelChars (cs : List Char) : List (List Char) :=
  ((Text.cutOutside false ',' .outside cs).map Text.strip).filter fun piece =>
    !piece.isEmpty && piece.head? != some '('

/-- The pieces of a list value. -/
def splitTopLevel (value : String) : List String :=
  (splitTopLevelChars value.toList).map String.ofList

/-- The truth value a text names. -/
def truth? (value : String) : Option Bool :=
  let name := Text.lower value
  if name = "true" then some true else if name = "false" then some false else none

/-- The integer of a text that consists of digits. Digits without a decimal
value have none. -/
def integer (value : String) : Outcome Int :=
  match Number.signedValue? value.toList with
  | some n => .ok n
  | none => .error (.defect .value)

/-- A typed value. -/
abbrev Typed := SchemaKind × OptionValue

/-- The value typed as an integer, when it looks like one. -/
def asInteger? (value : String) : Option (Outcome Typed) :=
  if Number.isIntegral value then some ((integer value).map fun n => (.integer, .int n)) else none

/-- The value typed as a truth value, when it names one. -/
def asBoolean? (value : String) : Option (Outcome Typed) :=
  (truth? value).map fun b => .ok (.boolean, .flag b)

/-- The value typed as a list. -/
def asList (value : String) : Outcome Typed :=
  .ok (.array, .list (splitTopLevel value))

/-- The type a system option's name gives its value. -/
def bySystemName? (name value : String) : Option (Outcome Typed) :=
  if ["select", "expand", "orderby"].contains name then some (asList value)
  else if ["top", "skip"].contains name then asInteger? value
  else if name = "count" then asBoolean? value
  else none

/-- The type a declared shape gives a value. -/
def byShape? (shape : Shape) (value : String) : Option (Outcome Typed) :=
  match shape.kind with
  | .array => some (asList value)
  | .integer => asInteger? value
  | .number => (Number.lenientFloat? value.toList).map fun x => .ok (.number, .num x)
  | .boolean => asBoolean? value
  | .string => some (.ok (.string, .text value))
  | .enum => some (.ok (.string, .text value))
  | .object => none
  | .unknown => none

/-- The type of a value by its looks. -/
def byLooks (value : String) : Outcome Typed :=
  ((asBoolean? value).or (asInteger? value)).getD (.ok (.string, .text value))

/-- A value typed by the system name, the declared shape or its looks, in
this order. -/
def typed (systemName : Option String) (shape : Option Shape) (value : String) : Outcome Typed :=
  ((systemName.bind (bySystemName? · value)).or (shape.bind (byShape? · value))).getD (byLooks value)

/-! ## Query strings -/

/-- The option of a pair, none when the pair is empty or has a blank name. -/
def optionOf (operation : Option Operation) (pair : List Char) : Outcome (Option QueryOption) :=
  let (rawName, rawValue) := Text.cutAt '=' pair
  let decoded := Text.strip (Text.queryDecode rawName)
  if decoded.isEmpty then .ok none
  else do
    let name := String.ofList (canonicalChars rawName)
    let system := decoded.head? == some '$'
    let declared := operation.bind (·.queryParameter? name)
    let value := String.ofList (Text.queryDecode (rawValue.getD []))
    let (kind, v) ← typed (if system then some (Text.lower name) else none) (declared.map (·.shape)) value
    pure (some ⟨name, String.ofList decoded, system, kind, v⟩)

/-- The options of pairs put in turn. -/
def collect (operation : Option Operation) (options : Entries String QueryOption) :
    List (List Char) → Outcome (Entries String QueryOption)
  | [] => .ok options
  | pair :: pairs => do
    match ← optionOf operation pair with
    | some o => collect operation (options.put o.name o) pairs
    | none => collect operation options pairs

/-- The options of a query string, typed with the help of an operation. -/
def parse (query : String) (operation : Option Operation) : Outcome (List QueryOption) :=
  (collect operation [] (Text.splitAll '&' query.toList)).map Entries.values

end Query

end ApiSnippets
