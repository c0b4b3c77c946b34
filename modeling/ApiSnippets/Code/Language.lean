import ApiSnippets.Body.Root
import ApiSnippets.Code.Expression
import ApiSnippets.Code.Statement
/-!
# Languages

What it takes to write snippets in a language: a dialect, a style for bodies,
the configuration and the statement of a call, and the imports. The style is
one of three: a nested expression, a sequence of statements, or an option of
a command.
-/

namespace ApiSnippets

/-- An import: a name and where it comes from. Either may be empty. -/
structure Import where
  name : String
  source : String
  deriving DecidableEq, Repr

/-- How a language imports what a snippet uses. -/
structure ImportStyle where
  /-- The imports of every snippet. -/
  root : List Import := []
  /-- The imports of the configuration of a call. -/
  configuration : ResolvedRequest → List Import := fun _ => []
  /-- The import of a type, for a request with these segments. -/
  model : List PathSegment → TypeRef → Import
  /-- The imports a literal depends on. -/
  literal : BodyNode → List Import := fun _ => []
  /-- The types that a body names. -/
  types : BodyNode → List TypeRef
  write : Import → String
  /-- The lines of the ordered imports. -/
  layout : List Import → List String := fun is => is.map write

/-- How a language writes bodies. -/
inductive BodyStyle where
  | initializer (s : InitializerStyle)
  | setter (s : SetterStyle)
  /-- The option for a body, none when the body has no content. -/
  | command (option? : BodyGraph → ResolvedRequest → Option String)

/-- The name of a style. -/
def BodyStyle.name : BodyStyle → String
  | initializer _ => "initializer"
  | setter _ => "setter"
  | command _ => "command"

/-- A language for snippets. -/
structure Language where
  id : String
  aliases : List String := []
  displayName : String
  dialect : Dialect
  body : BodyStyle
  /-- The comment at the top of a snippet. -/
  prologue : List String
  /-- Statements before the call, and the argument with the configuration. -/
  configuration : ResolvedRequest → List String × Option String
  /-- The arguments of the call: those of the body and of the configuration
  where there are such. -/
  arguments : Option String → Option String → List String :=
    fun body configuration => (body.toList ++ configuration.toList).filter (· ≠ "")
  /-- The statement of the call, given the chain of accessors and the
  arguments. -/
  call : String → List String → ResolvedRequest → String
  imports : Option ImportStyle := none

namespace Language

/-- The hint for the variable of a body. -/
def bodyHint : String := "requestBody"

/-- The comment that points to the documentation of a client. -/
def documentation (comment client : String) : List String :=
  [comment ++ " Code snippets are only available for the latest version. " ++
    "See the client library documentation for creating " ++ client ++ "."]

/-- A line one level deeper. -/
def indented (line : String) : String :=
  Line.tab ++ line

/-- The text of lines. -/
def joined (lines : List String) : String :=
  String.intercalate "\n" lines

/-- The types of objects, enumerations and elements that a node names. -/
def namedType? : BodyNode → Option TypeRef
  | .object t _ _ => some t
  | .enum t _ _ => some t
  | .array (some item) _ => item.typeRef?
  | _ => none

/-- The types that the nodes of a body name, in the order of their first
use. -/
def typesOf (n : BodyNode) : List TypeRef :=
  n.walk.filterMap namedType?

/-- The imports a literal depends on. -/
def literalImports (l : Language) (n : BodyNode) : List Import :=
  (l.imports.map fun s => s.literal n).getD []

/-- The lines that declare a body, and the argument that stands for it. -/
def bodyCode (l : Language) (g : BodyGraph) (r : ResolvedRequest) :
    Except Fault (List String × Option String) :=
  match l.body with
  | .command option? => .ok ([], option? g r)
  | .setter s => do
    let (statements, operand) ← s.body l.dialect g.root
    pure (statements.flatMap (s.write r.segments), some (operand.write l.dialect))
  | .initializer s =>
    let (name, _) := Locals.allocate l.dialect l.dialect.reservedLocals bodyHint
    let argument := some (l.dialect.reference name)
    match g.root with
    | .stream bs => .ok (s.stream name (Base64.encode bs), argument)
    | n => do
      let lines ← s.declare l.dialect name n
      pure (lines.map Line.write, argument)

end Language

end ApiSnippets
