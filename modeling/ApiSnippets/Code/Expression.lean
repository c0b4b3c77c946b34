import ApiSnippets.Code.Dialect
/-!
# Nested expressions

A body as one expression. An expression is a leaf or a group: opening lines,
members one level deeper, a closing line. `lines` lays an expression out, and
`InitializerStyle` says which groups a language makes of objects, arrays and
maps.
-/

namespace ApiSnippets

/-- A line at a level of indentation. -/
structure Line where
  indent : Nat
  text : String
  deriving DecidableEq, Repr

namespace Line

/-- A level of indentation. -/
def tab : String := "\t"

/-- The line as it is written. -/
def write (l : Line) : String :=
  String.join (List.replicate l.indent tab) ++ l.text

end Line

/-- An expression to be laid out. -/
inductive Expression where
  | leaf (text : String)
  /-- The text that opens the group on the current line, further lines, the
  members with the text before each, and the text that closes the group. -/
  | group (head : String) (more : List String) (members : List (String × Expression))
    (close : String)
  deriving Inhabited

namespace Expression

mutual

/-- The lines of an expression with a text before it and a text after it. -/
def lines (indent : Nat) (start ending : String) : Expression → List Line
  | leaf text => [⟨indent, start ++ text ++ ending⟩]
  | group head more members close =>
    ⟨indent, start ++ head⟩ :: more.map (fun text => ⟨indent, text⟩) ++
      memberLines (indent + 1) members ++ [⟨indent, close ++ ending⟩]

/-- The lines of members, with a comma after each. -/
def memberLines (indent : Nat) : List (String × Expression) → List Line
  | [] => []
  | (start, e) :: ms => lines indent start "," e ++ memberLines indent ms

end

end Expression

/-- How a language writes a body as one expression. -/
structure InitializerStyle where
  /-- The lines that open an object. -/
  objectHead : TypeRef → String × List String
  /-- The text that closes an object, which may have a type of its own. -/
  objectEnd : TypeRef → Bool → String
  field : String → String
  listHead : Option ItemType → String × List String
  listEnd : String
  emptyList : Option ItemType → String
  mapHead : String × List String
  mapEnd : String
  entry : String → String
  /-- What comes before the body where its variable is declared. -/
  declaration : String → BodyNode → String
  statementEnd : String
  /-- The declaration of a stream with the octets of a base64 text. -/
  stream : String → String → List String

namespace InitializerStyle

mutual

/-- The expression for a node. -/
def express (d : Dialect) (s : InitializerStyle) : BodyNode → Outcome Expression
  | .object type members derived => do
    let ms ← expressMembers d s s.field members
    let (head, more) := s.objectHead type
    pure (.group head more ms (s.objectEnd type derived))
  | .array item [] => .ok (.leaf (s.emptyList item))
  | .array item (e :: es) => do
    let first ← express d s e
    let rest ← expressAll d s es
    let (head, more) := s.listHead item
    pure (.group head more (("", first) :: rest) s.listEnd)
  | .map members => do
    let ms ← expressMembers d s s.entry members
    let (head, more) := s.mapHead
    pure (.group head more ms s.mapEnd)
  | n => do
    let text ← d.literal n
    pure (.leaf text)

/-- The expressions for elements. -/
def expressAll (d : Dialect) (s : InitializerStyle) :
    List BodyNode → Except Fault (List (String × Expression))
  | [] => .ok []
  | n :: ns => do
    let e ← express d s n
    let es ← expressAll d s ns
    pure (("", e) :: es)

/-- The expressions for members, each with what its name puts before it. -/
def expressMembers (d : Dialect) (s : InitializerStyle) (start : String → String) :
    List (String × BodyNode) → Except Fault (List (String × Expression))
  | [] => .ok []
  | (name, n) :: ms => do
    let e ← express d s n
    let es ← expressMembers d s start ms
    pure ((start name, e) :: es)

end

/-- The lines that declare a body under a name. -/
def declare (d : Dialect) (s : InitializerStyle) (name : String) (n : BodyNode) :
    Outcome (List Line) := do
  let e ← express d s n
  pure (e.lines 0 (s.declaration name n) s.statementEnd)

end InitializerStyle

end ApiSnippets
