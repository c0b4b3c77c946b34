import ApiSnippets.Entries
import ApiSnippets.Request.Method
import ApiSnippets.Text.Case
import ApiSnippets.Text.Cut
/-!
# Shapes, types and operations

What the index knows about an API: the shape of a schema, the named types
with their members, and the operations with their parameters and bodies.
-/

namespace ApiSnippets

/-- The coarse kind of a schema. -/
inductive SchemaKind where
  | string
  | integer
  | number
  | boolean
  | object
  | array
  | enum
  | unknown
  deriving DecidableEq, Repr, Inhabited

/-- The name of a kind. -/
def SchemaKind.name : SchemaKind → String
  | string => "string"
  | integer => "integer"
  | number => "number"
  | boolean => "boolean"
  | object => "object"
  | array => "array"
  | enum => "enum"
  | unknown => "unknown"

/-- The kind with a name. -/
def SchemaKind.ofName? (s : String) : Option SchemaKind :=
  [string, integer, number, boolean, object, array, enum, unknown].find? fun k => k.name == s

/-- The shape of a property, a parameter, a body or a response. An object or
an enumeration that is a named component carries its name, an inline object
its members. The formats are those of the schema and of everything it is
composed of. -/
structure Shape where
  kind : SchemaKind := .unknown
  typeName : Option String := none
  title : Option String := none
  formats : List String := []
  items : Option Shape := none
  properties : List (String × Shape) := []
  members : List String := []
  flags : Bool := false
  nullable : Bool := false
  deriving Inhabited

namespace Shape

/-- An object without a name and without declared members. -/
def isFreeForm (s : Shape) : Bool :=
  (s.kind == .object || s.kind == .unknown) && s.typeName.isNone && s.properties.isEmpty

/-- Whether one of some formats, given in lower case, is among the formats. -/
def hasFormat (s : Shape) (names : List String) : Bool :=
  s.formats.any fun f => names.contains (Text.lower f)

/-- The type name of an object that has a non-empty one. -/
def objectName? (s : Shape) : Option String :=
  if s.kind = .object then s.typeName.filter (· ≠ "") else none

end Shape

/-- A named component with its inherited members merged in. -/
structure TypeDescriptor where
  name : String
  namespaceName : String
  baseType : Option String := none
  title : Option String := none
  kind : SchemaKind := .object
  properties : List (String × Shape) := []
  members : List String := []
  flags : Bool := false
  deriving Inhabited

/-- The last component of a type's name. -/
def TypeDescriptor.shortName (t : TypeDescriptor) : String :=
  Text.lastComponent t.name

/-- Where a parameter stands in a request. -/
inductive ParameterLocation where
  | query
  | header
  | path
  | cookie
  deriving DecidableEq, Repr, Inhabited

/-- The name of a location. -/
def ParameterLocation.name : ParameterLocation → String
  | query => "query"
  | header => "header"
  | path => "path"
  | cookie => "cookie"

/-- The location with a name. -/
def ParameterLocation.ofName? (s : String) : Option ParameterLocation :=
  [query, header, path, cookie].find? fun l => l.name == s

/-- A declared parameter. -/
structure Parameter where
  name : String
  location : ParameterLocation
  shape : Shape := {}
  required : Bool := false
  deriving Inhabited

/-- Whether an operation is a plain one or a bound action or function. -/
inductive OperationType where
  | operation
  | action
  | function
  deriving DecidableEq, Repr, Inhabited

/-- The name of an operation type. -/
def OperationType.name : OperationType → String
  | operation => "operation"
  | action => "action"
  | function => "function"

/-- The operation type with a name. -/
def OperationType.ofName? (s : String) : Option OperationType :=
  [operation, action, function].find? fun t => t.name == s

/-- A declared operation. -/
structure Operation where
  method : Method
  operationId : Option String := none
  operationType : OperationType := .operation
  parameters : List Parameter := []
  requestSchema : Option Shape := none
  responseSchema : Option Shape := none
  deriving Inhabited

namespace Operation

/-- A parameter's name for comparison: without leading dollar signs and in
lower case. -/
def plainName (name : String) : String :=
  Text.lower (String.ofList (name.toList.dropWhile (· == '$')))

/-- The declared query parameter with a name, up to dollar signs and case. -/
def queryParameter? (op : Operation) (name : String) : Option Parameter :=
  op.parameters.find? fun p => p.location == .query && plainName p.name == plainName name

end Operation

end ApiSnippets
