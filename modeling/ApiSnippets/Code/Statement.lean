import ApiSnippets.Code.Locals
/-!
# Bodies as statements

A body as a sequence of statements: every object, array and map is a variable
of its own, which is declared before it is used, and members are assigned one
by one. `SetterStyle` says how a language writes a statement and where it
wants variables for plain values, too.
-/

namespace ApiSnippets

/-- What a statement refers to. -/
inductive Operand where
  | literal (text : String)
  | named (name : String)
  | address (name : String)
  deriving DecidableEq, Repr

/-- A statement of a body. -/
inductive Statement where
  /-- A variable for a new object. -/
  | object (name : String) (type : TypeRef)
  /-- A variable for an array with its elements. -/
  | list (name : String) (item : Option ItemType) (elements : List Operand)
  /-- A variable for a map with its entries. -/
  | map (name : String) (entries : List (String × Operand))
  /-- A member of an object. -/
  | assign (owner member : String) (value : Operand)
  /-- A variable for a plain value. -/
  | scalar (name text : String)
  /-- A variable for a point in time, read from a text. -/
  | moment (name text : String)
  /-- A variable for a stream with the octets of a base64 text. -/
  | stream (name base64 : String)
  deriving DecidableEq, Repr

namespace Operand

/-- The variable an operand refers to. -/
def name? : Operand → Option String
  | literal _ => none
  | named name => some name
  | address name => some name

/-- The text of an operand. -/
def write (d : Dialect) : Operand → String
  | literal text => text
  | named name => d.reference name
  | address name => "&" ++ d.reference name

end Operand

namespace Statement

/-- The variable a statement declares. -/
def declared? : Statement → Option String
  | object name _ => some name
  | list name _ _ => some name
  | map name _ => some name
  | assign _ _ _ => none
  | scalar name _ => some name
  | moment name _ => some name
  | stream name _ => some name

/-- The variables a statement refers to. -/
def used : Statement → List String
  | list _ _ elements => elements.filterMap Operand.name?
  | map _ entries => entries.filterMap fun e => e.2.name?
  | assign owner _ value => owner :: value.name?.toList
  | _ => []

end Statement

/-- How a language writes a body as statements. -/
structure SetterStyle where
  /-- The hint for the variable of the whole body. -/
  rootHint : BodyNode → String
  /-- The hint for the variable of a member that is an array. -/
  listHint : String → String
  /-- Whether plain values are assigned through variables. -/
  bindsScalars : Bool
  /-- The lines of a statement of a request with these segments. -/
  write : List PathSegment → Statement → List String

namespace SetterStyle

/-- Whether a value is assigned as it is, even where variables are wanted. -/
def isDirect : BodyNode → Bool
  | .null => true
  | .binary _ => true
  | .stream _ => true
  | _ => false

/-- The statement for the variable of a plain value. -/
def bindScalar (name text : String) : BodyNode → Statement
  | .datetime _ .dateTime => .moment name text
  | _ => .scalar name text

/-- The hint for the variable of an element. -/
def elementHint : BodyNode → String
  | .object t _ _ => t.shortName
  | .array _ _ => "values"
  | _ => "item"

/-- The hint for the variable of a member. -/
def memberHint (s : SetterStyle) (name : String) : BodyNode → String
  | .array _ _ => s.listHint name
  | _ => name

/-- The value of a member that is no container: the statements before, the
operand, and the names taken. -/
def scalarOperand (d : Dialect) (s : SetterStyle) (taken : List String) (name : String)
    (n : BodyNode) : Except Fault (List Statement × Operand × List String) := do
  let text ← d.literal n
  if s.bindsScalars && !isDirect n then
    let (var, taken) := Locals.allocate d taken name
    pure ([bindScalar var text n], .address var, taken)
  else pure ([], .literal text, taken)

mutual

/-- The statements for a container under a name, and the names taken. -/
def declare (d : Dialect) (s : SetterStyle) (name : String) (taken : List String) :
    BodyNode → Except Fault (List Statement × List String)
  | .object type members _ => do
    let (ss, taken) ← assignAll d s name taken members
    pure (.object name type :: ss, taken)
  | .array item elements => do
    let (ss, operands, taken) ← operandAll d s taken elements
    pure (ss ++ [.list name item operands], taken)
  | .map members => do
    let (ss, entries, taken) ← entryAll d s taken members
    pure (ss ++ [.map name entries], taken)
  | _ => .ok ([], taken)

/-- The statements that assign the members of an object. -/
def assignAll (d : Dialect) (s : SetterStyle) (owner : String) (taken : List String) :
    List (String × BodyNode) → Except Fault (List Statement × List String)
  | [] => .ok ([], taken)
  | (member, n) :: ms => do
    if n.isContainer then
      let (var, taken) := Locals.allocate d taken (s.memberHint member n)
      let (ss, taken) ← declare d s var taken n
      let (rest, taken) ← assignAll d s owner taken ms
      pure (ss ++ .assign owner member (.named var) :: rest, taken)
    else
      let (ss, operand, taken) ← scalarOperand d s taken member n
      let (rest, taken) ← assignAll d s owner taken ms
      pure (ss ++ .assign owner member operand :: rest, taken)

/-- The statements before a list of elements, and their operands. -/
def operandAll (d : Dialect) (s : SetterStyle) (taken : List String) :
    List BodyNode → Except Fault (List Statement × List Operand × List String)
  | [] => .ok ([], [], taken)
  | n :: ns => do
    if n.isContainer then
      let (var, taken) := Locals.allocate d taken (elementHint n)
      let (ss, taken) ← declare d s var taken n
      let (rest, operands, taken) ← operandAll d s taken ns
      pure (ss ++ rest, .named var :: operands, taken)
    else
      let text ← d.literal n
      let (rest, operands, taken) ← operandAll d s taken ns
      pure (rest, .literal text :: operands, taken)

/-- The statements before the entries of a map, and the entries. -/
def entryAll (d : Dialect) (s : SetterStyle) (taken : List String) :
    List (String × BodyNode) →
      Except Fault (List Statement × List (String × Operand) × List String)
  | [] => .ok ([], [], taken)
  | (key, n) :: ms => do
    if n.isContainer then
      let (var, taken) := Locals.allocate d taken key
      let (ss, taken) ← declare d s var taken n
      let (rest, entries, taken) ← entryAll d s taken ms
      pure (ss ++ rest, (key, .named var) :: entries, taken)
    else
      let text ← d.literal n
      let (rest, entries, taken) ← entryAll d s taken ms
      pure (rest, (key, .literal text) :: entries, taken)

end

/-- The statements of a body and the operand that stands for it. A body that
is no container needs no statement. -/
def body (d : Dialect) (s : SetterStyle) : BodyNode → Except Fault (List Statement × Operand)
  | .stream bs =>
    let (var, _) := Locals.allocate d d.reservedLocals "requestBody"
    .ok ([.stream var (Base64.encode bs)], .named var)
  | n => do
    if n.isContainer then
      let (var, taken) := Locals.allocate d d.reservedLocals (s.rootHint n)
      let (ss, _) ← declare d s var taken n
      pure (ss, .named var)
    else
      let text ← d.literal n
      pure ([], .literal text)

end SetterStyle

end ApiSnippets
