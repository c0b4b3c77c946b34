import ApiSnippets.Code.Language
/-!
# C#

Bodies are object initializers; query options and headers go into a lambda
that configures the request.
-/

namespace ApiSnippets

namespace CSharp

/-- The reserved words. -/
def keywords : List String :=
  ["abstract", "as", "base", "bool", "break", "byte", "case", "catch", "char", "checked", "class",
    "const", "continue", "decimal", "default", "delegate", "do", "double", "else", "enum", "event",
    "explicit", "extern", "false", "finally", "fixed", "float", "for", "foreach", "goto", "if",
    "implicit", "in", "int", "interface", "internal", "is", "lock", "long", "namespace", "new",
    "null", "object", "operator", "out", "override", "params", "private", "protected", "public",
    "readonly", "ref", "return", "sbyte", "sealed", "short", "sizeof", "stackalloc", "static",
    "string", "struct", "switch", "this", "throw", "true", "try", "typeof", "uint", "ulong",
    "unchecked", "unsafe", "ushort", "using", "virtual", "void", "volatile", "while"]

/-- The suffix of a number's type. -/
def numberSuffix (t : NumberType) : String :=
  match t.fractional, t.wide with
  | true, true => "d"
  | true, false => "f"
  | false, true => "L"
  | false, false => ""

/-- A text read as a temporal value. -/
def moment (t : Temporal) (value : String) : String :=
  let text := Text.doubleQuoted value
  match t with
  | .date => "new Date(DateTime.Parse(" ++ text ++ "))"
  | .time => "new Time(DateTime.Parse(" ++ text ++ "))"
  | .duration => "TimeSpan.Parse(" ++ text ++ ")"
  | .dateTime => "DateTimeOffset.Parse(" ++ text ++ ")"
  | .other => "DateTimeOffset.Parse(" ++ text ++ ")"

/-- The octets of a base64 text. -/
def octets (base64 : String) : String :=
  "Convert.FromBase64String(" ++ Text.doubleQuoted base64 ++ ")"

/-- A member of an enumeration. -/
def enumMember (t : TypeRef) (member : String) : String :=
  Package.className t ++ "." ++ Naming.pascal member

/-- The conventions of C#. -/
def dialect : Dialect where
  segmentCase := Naming.pascal
  propertyCase := Naming.pascal
  reserved := keywords
  safe name := "@" ++ name
  reservedLocals := ["graphClient", "result", "requestConfiguration"]
  keyAccess := .subscript
  number t digits := digits ++ numberSuffix t
  guid value := "Guid.Parse(" ++ Text.doubleQuoted value ++ ")"
  moment := moment
  binary := octets
  enum t members _ := String.intercalate " | " (members.map (enumMember t))

/-- The type of the elements of a list. -/
def itemType : Option ItemType → String
  | none => "object"
  | some (.enum t) => Package.className t ++ "?"
  | some (.object t) => Package.className t
  | some (.number t) =>
    match t.fractional, t.wide with
    | true, true => "double?"
    | true, false => "float?"
    | false, true => "long?"
    | false, false => "int?"
  | some .string => "string"
  | some .boolean => "bool?"
  | some .guid => "Guid?"
  | some .datetime => "DateTimeOffset?"
  | some .binary => "byte[]"
  | some .map => "object"

/-- Object initializers. -/
def style : InitializerStyle where
  objectHead t := ("new " ++ Package.className t, ["\x7b"])
  objectEnd _ _ := "\x7d"
  field name := Naming.pascal name ++ " = "
  listHead item := ("new List<" ++ itemType item ++ ">", ["\x7b"])
  listEnd := "\x7d"
  emptyList item := "new List<" ++ itemType item ++ ">()"
  mapHead := ("new Dictionary<string, object>", ["\x7b"])
  mapEnd := "\x7d"
  entry key := "[" ++ Text.doubleQuoted key ++ "] = "
  declaration name _ := "var " ++ name ++ " = "
  statementEnd := ";"
  stream name base64 := ["using var " ++ name ++ " = new MemoryStream(" ++ octets base64 ++ ");"]

/-- The lambda that configures a request. -/
def configuration (r : ResolvedRequest) : String :=
  let option (o : QueryOption) :=
    "requestConfiguration.QueryParameters." ++ Naming.pascal o.name ++ " = " ++
      dialect.optionValue (dialect.texts "new string []\x7b " "," " \x7d") o.value ++ ";"
  let header (h : Header) :=
    "requestConfiguration.Headers.Add(" ++ Text.doubleQuoted h.name ++ ", " ++
      Text.doubleQuoted h.value ++ ");"
  Language.joined <| ["(requestConfiguration) =>", "\x7b"] ++
    (r.query.map option ++ r.headers.map header).map Language.indented ++ ["\x7d"]

/-- The call of an operation. -/
def call (chain : String) (arguments : List String) (r : ResolvedRequest) : String :=
  (if r.operation.responseSchema.isSome then "var result = " else "") ++ "await graphClient" ++
    chain ++ "." ++ Naming.pascal r.method.name ++ "Async(" ++
    String.intercalate ", " arguments ++ ");"

/-- The namespace of a type. -/
def model (segments : List PathSegment) (t : TypeRef) : Import :=
  let parts :=
    if t.synthesized then (Package.parts (Package.owner t segments)).map Naming.pascal
    else "Models" :: (Package.modelParts t).map Naming.pascal
  ⟨"", "Microsoft.Graph." ++ String.intercalate "." parts⟩

/-- Snippets in C#. -/
def language : Language where
  id := "c#"
  aliases := ["csharp", "cs"]
  displayName := "C#"
  dialect := dialect
  body := .initializer style
  prologue := Language.documentation "//" "graphClient"
  configuration r := ([], some (configuration r))
  call := call
  imports := some
    { model := model
      types := Language.typesOf
      write := fun i => "using " ++ i.source ++ ";" }

end CSharp

end ApiSnippets
