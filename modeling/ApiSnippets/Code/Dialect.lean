import ApiSnippets.Body.Node
import ApiSnippets.Code.Package
import ApiSnippets.Fault
import ApiSnippets.Number.Text
import ApiSnippets.Request.Query
import ApiSnippets.Text.Base64
import ApiSnippets.Text.Quoted
/-!
# Dialects

How a language writes names, literals and the chain of accessors that follows
the client. A dialect is a record of small answers; everything that languages
share is derived from it here. The only literal without a text is a number
that its type cannot represent.
-/

namespace ApiSnippets

/-- How a builder is reached by the key of a collection. -/
inductive KeyAccess where
  /-- A placeholder in square brackets. -/
  | subscript
  /-- A method named after the key, with the key as its argument. -/
  | method (name : String → String) (argument : String → String)
  /-- Keys have no place in the chain. -/
  | none

/-- The conventions of a language. -/
structure Dialect where
  segmentCase : String → String
  propertyCase : String → String
  variableCase : String → String := Naming.camel
  /-- Words that are no names. -/
  reserved : List String := []
  /-- The name for a reserved word. -/
  safe : String → String := fun name => name ++ "_"
  /-- Names of locals that a snippet uses for itself. -/
  reservedLocals : List String := []
  access : String := "."
  accessorEnd : String := ""
  keyAccess : KeyAccess
  /-- Whether the accessors of a chain take arguments. -/
  takesArguments : Bool := true
  reference : String → String := fun name => name
  text : String → String := Text.doubleQuoted
  truth : Bool → String := fun b => if b then "true" else "false"
  null : String := "null"
  number : NumberType → String → String := fun _ digits => digits
  guid : String → String := text
  moment : Temporal → String → String
  /-- The octets that a base64 text encodes. -/
  binary : String → String
  enum : TypeRef → List String → Bool → String

namespace Dialect

/-! ## Names -/

/-- A name that is no reserved word. -/
def escape (d : Dialect) (name : String) : String :=
  if d.reserved.contains name then d.safe name else name

/-- A placeholder for a name. -/
def placeholder (name : String) : String :=
  "\x7b" ++ name ++ "\x7d"

/-! ## Literals -/

/-- The text of a number of a type. -/
def digits (v : Numeral) (t : NumberType) : Outcome String :=
  match t.fractional, v with
  | true, .int n =>
    match Number.floatOfInt? n with
    | some x => .ok (Number.floatText x)
    | none => .error (.defect .overflow)
  | true, .num x => .ok (Number.floatText x)
  | false, .int n => .ok (toString n)
  | false, .num x =>
    match Number.truncate? x with
    | some n => .ok (toString n)
    | none => .error (.defect (if x.isNaN then .value else .overflow))

/-- The literal of a value without parts. -/
def literal (d : Dialect) : BodyNode → Outcome String
  | .string v => .ok (d.text v)
  | .number v t => do
    let text ← digits v t
    pure (d.number t text)
  | .boolean b => .ok (d.truth b)
  | .guid v => .ok (d.guid v)
  | .datetime v t => .ok (d.moment t v)
  | .binary v => .ok (d.binary v)
  | .stream bs => .ok (d.binary (Base64.encode bs))
  | .enum t members flags => .ok (d.enum t members flags)
  | .null => .ok d.null
  | .object _ _ _ => .error (.defect .type)
  | .array _ _ => .error (.defect .type)
  | .map _ => .error (.defect .type)

/-! ## Accessors -/

/-- A step of the chain. -/
def step (d : Dialect) (name ending : String) : String :=
  d.access ++ d.escape (d.segmentCase name) ++ ending

/-- Access to a child. -/
def accessor (d : Dialect) (name : String) : String :=
  d.step name d.accessorEnd

/-- A method with arguments. -/
def call (d : Dialect) (name : String) (arguments : List String) : String :=
  d.step name ("(" ++ String.intercalate ", " arguments ++ ")")

/-- Access by a key. -/
def indexer (d : Dialect) (key : String) : String :=
  match d.keyAccess with
  | .subscript => "[" ++ d.text (placeholder key) ++ "]"
  | .method name argument => d.call (name key) [d.text (argument key)]
  | .none => ""

/-- Access by an alternate key. -/
def alternate (d : Dialect) (collection key : String) (value : Option String) : String :=
  let name := Naming.alternateKeyAccessor collection key
  if d.takesArguments then d.call name [d.text (value.getD (placeholder key))] else d.accessor name

/-- The argument for a parameter. -/
def argument (d : Dialect) (p : BoundParameter) : String :=
  if p.placeholder then d.text p.value
  else
    match p.kind, Query.truth? p.value with
    | .integer, _ => if Number.isDashedDigits p.value then p.value else d.text p.value
    | .boolean, some b => d.truth b
    | _, _ => d.text p.value

/-- The call of an action or a function. -/
def invocation (d : Dialect) (name : String) (ps : List BoundParameter) : String :=
  if ps.isEmpty || !d.takesArguments then d.accessor name
  else
    d.call (name ++ String.join (ps.map fun p => "With" ++ Naming.pascal p.name))
      (ps.map d.argument)

/-- The accessor of a segment itself. -/
def roleAccessor (d : Dialect) : SegmentRole → String
  | .literal name _ => d.accessor name
  | .parameter name => d.indexer name
  | .keyed _ key => d.indexer key
  | .alternate collection key value => d.alternate collection key value
  | .action name ps => d.invocation name ps
  | .function name ps => d.invocation name ps
  | .reference => d.accessor "ref"

/-- The accessors of a segment and its type cast. -/
def segmentAccessors (d : Dialect) (s : PathSegment) : String :=
  d.roleAccessor s.role ++
    ((Package.castOf? s).map fun t => d.accessor ("graph" ++ Package.castClass t)).getD ""

/-- **The chain of accessors** that follows the client. -/
def chain (d : Dialect) (segments : List PathSegment) : String :=
  String.join (segments.map d.segmentAccessors)

/-! ## Query options -/

/-- The value of an option, given how lists are written. -/
def optionValue (d : Dialect) (list : List String → String) : OptionValue → String
  | .list items => list items
  | .flag b => d.truth b
  | .int n => toString n
  | .num x => Number.floatText x
  | .text s => d.text s

/-- Texts between two brackets. -/
def texts (d : Dialect) (opening sep close : String) (items : List String) : String :=
  opening ++ String.intercalate sep (items.map d.text) ++ close

end Dialect

end ApiSnippets
