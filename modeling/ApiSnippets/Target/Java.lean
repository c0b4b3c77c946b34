import ApiSnippets.Code.Language
/-!
# Java

Every object is a variable filled through setters, lists are linked lists and
maps hash maps. The values of an enumeration of flags form an enumeration
set. Snippets carry no imports.
-/

namespace ApiSnippets

namespace Java

/-- The reserved words. -/
def keywords : List String :=
  ["abstract", "assert", "boolean", "break", "byte", "case", "catch", "char", "class", "const",
    "continue", "default", "do", "double", "else", "enum", "extends", "final", "finally", "float",
    "for", "goto", "if", "implements", "import", "instanceof", "int", "interface", "long", "native",
    "new", "package", "private", "protected", "public", "return", "short", "static", "strictfp",
    "super", "switch", "synchronized", "this", "throw", "throws", "transient", "try", "void",
    "volatile", "while", "true", "false", "null", "var"]

/-- The suffix of a number's type. -/
def numberSuffix (t : NumberType) : String :=
  match t.fractional, t.wide with
  | true, true => "d"
  | true, false => "f"
  | false, true => "L"
  | false, false => ""

/-- A text read as a temporal value. -/
def moment (t : Temporal) (value : String) : String :=
  let text := Text.doubleQuoted value
  match t with
  | .date => "LocalDate.parse(" ++ text ++ ")"
  | .time => "LocalTime.parse(" ++ text ++ ")"
  | .duration => "PeriodAndDuration.ofDuration(Duration.parse(" ++ text ++ "))"
  | .dateTime => "OffsetDateTime.parse(" ++ text ++ ")"
  | .other => "OffsetDateTime.parse(" ++ text ++ ")"

/-- The octets of a base64 text. -/
def octets (base64 : String) : String :=
  "Base64.getDecoder().decode(" ++ Text.doubleQuoted base64 ++ ")"

/-- The members of an enumeration. -/
def enumValue (t : TypeRef) (members : List String) (flags : Bool) : String :=
  let names := String.intercalate ", " (members.map fun m =>
    Package.className t ++ "." ++ Naming.pascal m)
  if flags then "EnumSet.of(" ++ names ++ ")" else names

/-- The conventions of Java. -/
def dialect : Dialect where
  segmentCase := Naming.camel
  propertyCase := Naming.camel
  reserved := keywords
  reservedLocals := ["graphClient", "result", "requestConfiguration"]
  accessorEnd := "()"
  keyAccess := .method Naming.keyAccessor Dialect.placeholder
  number t digits := digits ++ numberSuffix t
  guid value := "UUID.fromString(" ++ Text.doubleQuoted value ++ ")"
  moment := moment
  binary := octets
  enum := enumValue

/-- The type of the elements of a list. -/
def itemType : Option ItemType → String
  | none => "Object"
  | some (.enum t) => Package.className t
  | some (.object t) => Package.className t
  | some (.number t) =>
    match t.fractional, t.wide with
    | true, true => "Double"
    | true, false => "Float"
    | false, true => "Long"
    | false, false => "Integer"
  | some .string => "String"
  | some .boolean => "Boolean"
  | some .guid => "UUID"
  | some .datetime => "OffsetDateTime"
  | some .binary => "byte[]"
  | some .map => "Object"

/-- The lines of a statement. -/
def statement : Statement → List String
  | .object name t =>
    let type := Package.className t
    [type ++ " " ++ name ++ " = new " ++ type ++ "();"]
  | .list name item elements =>
    let type := itemType item
    ("LinkedList<" ++ type ++ "> " ++ name ++ " = new LinkedList<" ++ type ++ ">();") ::
      elements.map fun e => name ++ ".add(" ++ e.write dialect ++ ");"
  | .map name entries =>
    ("HashMap<String, Object> " ++ name ++ " = new HashMap<>();") ::
      entries.map fun (key, e) =>
        name ++ ".put(" ++ Text.doubleQuoted key ++ ", " ++ e.write dialect ++ ");"
  | .assign owner member value =>
    [owner ++ ".set" ++ Naming.pascal member ++ "(" ++ value.write dialect ++ ");"]
  | .scalar name text => ["var " ++ name ++ " = " ++ text ++ ";"]
  | .moment name text => ["var " ++ name ++ " = " ++ text ++ ";"]
  | .stream name base64 =>
    ["InputStream " ++ name ++ " = new ByteArrayInputStream(" ++ octets base64 ++ ");"]

/-- The hint for the variable of a body: the class of an object. -/
def rootHint : BodyNode → String
  | .object t _ _ => Naming.camel t.shortName
  | _ => Language.bodyHint

/-- Bodies as statements. -/
def style : SetterStyle where
  rootHint := rootHint
  listHint := Naming.camel
  bindsScalars := false
  write _ := statement

/-- The lambda that configures a request. -/
def configuration (r : ResolvedRequest) : String :=
  let option (o : QueryOption) :=
    "requestConfiguration.queryParameters." ++ Naming.camel o.name ++ " = " ++
      dialect.optionValue (dialect.texts "new String []\x7b" ", " "\x7d") o.value ++ ";"
  let header (h : Header) :=
    "requestConfiguration.headers.add(" ++ Text.doubleQuoted h.name ++ ", " ++
      Text.doubleQuoted h.value ++ ");"
  Language.joined <| ["requestConfiguration -> \x7b"] ++
    (r.query.map option ++ r.headers.map header).map Language.indented ++ ["\x7d"]

/-- The declaration of the result of an operation. -/
def result (r : ResolvedRequest) : String :=
  if r.operation.responseSchema.isSome then
    ((Package.responseType? r.operation.responseSchema).map Package.className).getD "var" ++
      " result = "
  else ""

/-- The call of an operation. -/
def call (chain : String) (arguments : List String) (r : ResolvedRequest) : String :=
  result r ++ "graphClient" ++ chain ++ "." ++ r.method.name ++ "(" ++
    String.intercalate ", " arguments ++ ");"

/-- Snippets in Java. -/
def language : Language where
  id := "java"
  displayName := "Java"
  dialect := dialect
  body := .setter style
  prologue := Language.documentation "//" "graphClient"
  configuration r := ([], some (configuration r))
  call := call

end Java

end ApiSnippets
