import ApiSnippets.Resolution.Request
/-!
# Summaries of resolved requests

What a reader wants to know about a resolved request, as texts.
-/

namespace ApiSnippets

/-- The text for what is absent. -/
def Summary.absent : String := "-"

/-- A short text for a shape: the name of its type, its title or its kind. -/
def Shape.label (s : Shape) : String :=
  match s.typeName.filter (· ≠ ""), s.title.filter (· ≠ "") with
  | some name, _ => name
  | none, some title => title ++ " (inline)"
  | none, none => s.kind.name

/-- A short text for a shape that may be absent. -/
def Shape.labelOf (s : Option Shape) : String :=
  (s.map Shape.label).getD Summary.absent

/-- A resolved request in short texts. -/
structure Summary where
  method : String
  version : String
  path : String
  template : String
  operationId : String
  operationType : String
  request : String
  response : String
  deriving DecidableEq, Repr

/-- The summary of a resolved request. -/
def ResolvedRequest.summary (r : ResolvedRequest) : Summary where
  method := Text.upper r.method.name
  version := r.version
  path := r.path
  template := r.template
  operationId := (r.operation.operationId.filter (· ≠ "")).getD Summary.absent
  operationType := r.operation.operationType.name
  request := Shape.labelOf r.operation.requestSchema
  response := Shape.labelOf r.operation.responseSchema

end ApiSnippets
