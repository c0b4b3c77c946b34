import ApiSnippets.Notice
import ApiSnippets.Number.Text
import ApiSnippets.Request.Segment
import ApiSnippets.Schema.Tree
/-!
# Classifying a matched segment

What a segment means, given the node it matches and the segments before it.
The arguments of a call are bound to the parameters of the template, in the
template's order; an argument the template does not have is dropped with a
notice.
-/

namespace ApiSnippets

namespace PathNode

/-! ## The type of a node -/

/-- The type of a node's operations: an action or a function when one of them
is. -/
def operationType (n : PathNode) : OperationType :=
  let types := n.operations.map fun (_, op) => op.operationType
  if types.contains .action then .action
  else if types.contains .function then .function
  else .operation

/-- The last parameter that an operation declares under a name, letter case
aside. -/
def declared? (n : PathNode) (name : String) : Option Parameter :=
  (n.operations.flatMap fun (_, op) => op.parameters).reverse.find? fun p =>
    Text.sameLetters p.name name

end PathNode

namespace BoundParameter

/-! ## Arguments -/

/-- The kind of a value by its looks. -/
def kindOfValue (value : String) : SchemaKind :=
  if ["true", "false"].contains (Text.lower value) then .boolean
  else if Number.isDashedDigits value then .integer
  else .string

/-- A name in braces. -/
def placeholderText (name : String) : String :=
  "\x7b" ++ name ++ "\x7d"

/-- Whether a value is a placeholder. -/
def isPlaceholder (value : String) : Bool :=
  Text.hasStart "\x7b" value && Text.hasEnd "\x7d" value

/-- The parameter of a name with its declared kind and its written value. -/
def ofWritten (name : String) (declared : Option SchemaKind) (written : Option String) :
    BoundParameter :=
  let declared := declared.filter (· != .unknown)
  match written.filter fun w => !Text.isBlankText w.toList with
  | none => ⟨name, placeholderText name, declared.getD .string, true⟩
  | some w =>
    let value := Call.unquote w
    let looks := if (Text.strip w.toList).head? = some '\'' then .string else kindOfValue value
    ⟨name, value, declared.getD looks, isPlaceholder value⟩

/-- The parameters of a template's call with the arguments of a request. -/
def bind (n : PathNode) (template given : Entries String String) : List BoundParameter :=
  (Entries.keys template).map fun name =>
    ofWritten name ((n.declared? name).map (·.shape.kind)) (Call.argument? given name)

/-- The arguments of a request that a template does not have. Of spellings of
one name the last one is meant. -/
def undeclared (template given : Entries String String) : List String :=
  Entries.values <| (Entries.ofPairs ((Entries.keys given).map fun a => (Text.lower a, a))).filter
    fun (key, _) => !(Entries.keys template).any fun name => Text.lower name == key

end BoundParameter

namespace PathSegment

/-! ## Segments -/

/-- The properties behind the segments that begin with a dollar sign. -/
def specialName? (segment : String) : Option String :=
  if segment = "$value" then some "content"
  else if segment = "$count" then some "count"
  else none

/-- The properties whose accessor is not named after the segment. -/
def accessorName? (segment : String) : Option String :=
  if segment = "directory" then some "directoryObject" else none

/-- The segment for a placeholder: a key when it follows a collection. -/
def ofPlaceholder (name : String) (before : List PathSegment) : PathSegment :=
  match before.getLast? with
  | some ⟨.literal collection _, _⟩ => ⟨.keyed collection name, none⟩
  | _ => ⟨.parameter name, none⟩

/-- The segment for a call: access by an alternate key when the name has no
namespace and nothing says that it is an action or a function. -/
def ofCall (n : PathNode) (segment : String) : Noted PathSegment :=
  let template := Call.ofSegment n.segment
  let given := (Call.ofSegment segment).arguments
  if n.operationType = .operation ∧ Text.hasChar '.' template.name = false then
    let key := (Entries.keys template.arguments).headD "id"
    let value := Call.unquote ((Call.argument? given key).getD "")
    pure ⟨.alternate template.name key (if value.isEmpty then none else some value), none⟩
  else do
    for a in BoundParameter.undeclared template.arguments given do
      Noted.note (.undeclaredArgument a n.segment)
    let name := Text.lastComponent template.name
    let bound := BoundParameter.bind n template.arguments given
    pure ⟨if n.operationType = .action then .action name bound else .function name bound, none⟩

/-- The meaning of a segment that matches a node; none for a declared type
cast. -/
def classify (n : PathNode) (segment : String) (before : List PathSegment) :
    Noted (Option PathSegment) :=
  if n.segment = "$ref" then pure (some ⟨.reference, none⟩)
  else
    match specialName? n.segment with
    | some name => pure (some ⟨.literal name (some n.segment), none⟩)
    | none =>
      match n.parameterName? with
      | some name => pure (some (ofPlaceholder name before))
      | none =>
        if n.hasArguments then some <$> ofCall n segment
        else if Text.hasChar '.' n.segment then
          let name := Text.lastComponent n.segment
          pure <| match n.operationType with
            | .action => some ⟨.action name [], none⟩
            | .function => some ⟨.function name [], none⟩
            | .operation => none
        else
          match accessorName? n.segment with
          | some name => pure (some ⟨.literal name (some n.segment), none⟩)
          | none => pure (some (literal n.segment))

end PathSegment

end ApiSnippets
