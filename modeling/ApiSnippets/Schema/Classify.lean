import ApiSnippets.Schema.Descent
import ApiSnippets.Schema.Shape
/-!
# Classifying schemas

The shape of any schema of a document. A reference to an object component
keeps the component's name and goes no further; a reference to an enumeration
takes its members along; any other reference is followed, each text once. A
composition is folded: a named object among its members decides, objects
alone are merged, and otherwise the kind of highest priority wins and the
formats are united.
-/

namespace ApiSnippets

namespace Schema

/-- The entries of a mapping. -/
abbrev Fields := List (Scalar × Doc)

/-! ## Reading a schema -/

/-- Whether a field is present and counts as true. -/
def isSet (name : String) (es : Fields) : Bool :=
  (Doc.field? name es).any (·.isTruthy)

/-- Whether a field is present. -/
def has (name : String) (es : Fields) : Bool :=
  (Doc.field? name es).isSome

/-- The title of a schema, none when it is empty. -/
def titleOf (es : Fields) : Option String :=
  (Doc.field? "title" es).bind Doc.filledText?

/-- The format of a schema. -/
def formatOf (es : Fields) : List String :=
  ((Doc.field? "format" es).bind Doc.text?).toList

/-- Whether a value is the text `null`. -/
def isNullName : Doc → Bool
  | .text s => s == "null"
  | _ => false

/-- The type of a schema; of a list of types the first that is not `null`. -/
def primaryType (es : Fields) : Doc :=
  match (Doc.field? "type" es).map Doc.opened with
  | none => .null
  | some (.list types) => (types.find? fun t => !isNullName t).getD .null
  | some t => t

/-- Whether the type of a schema is this name. -/
def hasType (name : String) (es : Fields) : Bool :=
  match primaryType es with
  | .text t => t == name
  | _ => false

/-- Whether a schema has no type. -/
def isUntyped (es : Fields) : Bool :=
  match primaryType es with
  | .null => true
  | _ => false

/-- Whether a schema is an enumeration. -/
def isEnum (es : Fields) : Bool :=
  has "enum" es && (isUntyped es || hasType "string" es)

/-- Whether a schema describes an object. -/
def isObjectLike (es : Fields) : Bool :=
  hasType "object" es || has "properties" es || has "allOf" es

/-- Whether a composition's member only says that the value may be null. -/
def isNullPlaceholder (v : Doc) : Bool :=
  match v.opened with
  | .map es =>
    isSet "nullable" es &&
      (es.all fun e =>
        match e.1 with
        | .text k => k == "type" || k == "nullable"
        | _ => false) &&
      (match Doc.field? "type" es with
        | none => true
        | some (.text t) => t == "object"
        | some _ => false)
  | _ => false

/-- Whether a value is null. -/
def isNull : Doc → Bool
  | .null => true
  | _ => false

/-- The members of an enumeration as texts, and whether they are flags. -/
def enumInfo (es : Fields) : Outcome (List String × Bool) := do
  let values ←
    match Doc.field? "enum" es with
    | some v => v.elements
    | none => .ok []
  let flags :=
    match (Doc.field? "x-ms-enum-flags" es).map Doc.opened with
    | some (.map fs) => isSet "isFlags" fs
    | _ => false
  pure ((values.filter fun v => !isNull v).map Doc.asText, flags)

/-- The names that hold the members of a composition. -/
def compositionNames : List String := ["anyOf", "oneOf", "allOf"]

/-- The members of a schema that is a composition. -/
def compositionMembers (es : Fields) : Outcome (List Doc) :=
  Doc.elementsUnder es compositionNames

/-- The kind of a schema whose type is a scalar type, unknown for any other
type. -/
def primitiveKind (es : Fields) : Outcome SchemaKind :=
  match primaryType es with
  | .text "string" => .ok .string
  | .text "integer" => .ok .integer
  | .text "number" => .ok .number
  | .text "boolean" => .ok .boolean
  | t => if t.isKeyLike then .ok .unknown else .error (.defect .type)

/-! ## Folding a composition -/

/-- The kinds a composition can take, the first that occurs among its members
winning. -/
def kindPriority : List SchemaKind :=
  [.object, .array, .number, .integer, .boolean, .enum, .string]

/-- Formats with more of them added, each once. -/
def addFormats (formats more : List String) : List String :=
  more.foldl (fun acc f => if acc.contains f then acc else acc ++ [f]) formats

/-- The formats of a composition. -/
def unitedFormats (es : Fields) (shapes : List Shape) : List String :=
  shapes.foldl (fun acc s => addFormats acc s.formats) (formatOf es)

/-- Whether a composition or one of its members allows null. -/
def isNullable (es : Fields) (members : List Doc) : Bool :=
  isSet "nullable" es || members.any fun m => (m.get? "nullable").any (·.isTruthy)

/-- An object shape with a name. -/
def isNamedObject (s : Shape) : Bool :=
  s.kind == .object && s.typeName.any (· ≠ "")

/-- The properties of objects merged, a later one replacing an earlier one of
the same name. -/
def mergedProperties (shapes : List Shape) : List (String × Shape) :=
  shapes.foldl (fun acc s => Entries.putAll acc s.properties) []

/-- The shape of a composition with these members, whose own shapes are known
except for the members that only allow null. -/
def fold (es : Fields) (members : List Doc) (shapes : List Shape) : Shape :=
  let nullable := isNullable es members
  match shapes.find? isNamedObject with
  | some s => { s with nullable := nullable }
  | none =>
    if !shapes.isEmpty && shapes.all fun s => s.kind == .object then
      { kind := .object
        title := (titleOf es).or (shapes.findSome? fun s => s.title.filter (· ≠ ""))
        properties := mergedProperties shapes
        nullable := nullable }
    else
      let formats := unitedFormats es shapes
      match kindPriority.findSome? fun k => shapes.find? fun s => s.kind == k with
      | some s => { s with formats := formats, nullable := nullable }
      | none => { formats := formats, nullable := nullable }

/-! ## The shape of a schema -/

/-- The shape of an enumeration. -/
def enumShape (typeName : Option String) (nullable : Bool) (es : Fields) : Outcome Shape := do
  let (members, flags) ← enumInfo es
  pure { kind := .enum, typeName := typeName, members := members, flags := flags, nullable := nullable }

/-- Whether every property has a name that is a text. -/
def areNamed (ps : List (Scalar × Shape)) : Bool :=
  ps.all fun p => p.1.recordText?.isSome

/-- The properties whose names are texts. -/
def named (ps : List (Scalar × Shape)) : List (String × Shape) :=
  Entries.ofPairs (ps.filterMap fun p => p.1.recordText?.map fun name => (name, p.2))

/-- Property names as texts; a property whose name is none is a defect. -/
def namedProperties (ps : List (Scalar × Shape)) : Outcome (List (String × Shape)) :=
  if areNamed ps then .ok (named ps) else .error (.defect .record)

/-- **The shape of a schema**, given the references already followed. -/
def shapeFrom (root schema : Doc) (seen : List String) : Outcome Shape :=
  match schema with
  | .map es =>
    match _hr : Doc.field? Pointer.key es with
    | some (.text r) =>
      if _hs : seen.contains r = false then
        match _ht : Pointer.resolve r root with
        | .error e => .error e
        | .ok target =>
          match target.opened with
          | .map ts =>
            let typeName := Pointer.schemaId? r
            if isEnum ts then enumShape typeName false ts
            else if typeName.isSome && isObjectLike ts then
              .ok { kind := .object, typeName := typeName, title := titleOf ts,
                    nullable := isSet "nullable" ts }
            else shapeFrom root target (r :: seen)
          | _ => .ok {}
      else .ok { kind := .object, typeName := Pointer.schemaId? r }
    | some v => .error (Pointer.refDefect v)
    | none =>
      match _hm : compositionMembers es with
      | .error e => .error e
      | .ok (first :: more) => do
        let shapes ← Outcome.mapMem ((first :: more).filter fun m => !isNullPlaceholder m)
          fun m _ => shapeFrom root m seen
        pure (fold es (first :: more) shapes)
      | .ok [] =>
        let nullable := isSet "nullable" es
        if isEnum es then enumShape none nullable es
        else if hasType "array" es then
          match _hi : Doc.field? "items" es with
          | some v => do
            let s ← shapeFrom root v seen
            pure { kind := .array, items := some s, nullable := nullable }
          | none => .ok { kind := .array, items := some {}, nullable := nullable }
        else if hasType "object" es || has "properties" es then do
          let properties ←
            match _hp : Doc.field? "properties" es with
            | some v =>
              match _ho : v.opened with
              | .map ps => do
                let shapes ← Outcome.mapMem ps fun p _ => do
                  let s ← shapeFrom root p.2 seen
                  pure (p.1, s)
                namedProperties shapes
              | _ => if v.isTruthy then .error (.defect .part) else .ok []
            | none => .ok []
          pure { kind := .object, title := titleOf es, properties := properties, nullable := nullable }
        else do
          let kind ← primitiveKind es
          pure { kind := kind, formats := formatOf es, nullable := nullable }
  | .loop _ v => shapeFrom root v seen
  | .endless => .error (.defect .recursion)
  | _ => .ok {}
termination_by Doc.walkMeasure root schema seen
decreasing_by
  · exact Doc.walkMeasure_follow _hr _hs _ht
  · rename_i hmem
    exact Doc.walkMeasure_part (Doc.isPart_of_elementsUnder _hm (List.mem_filter.1 hmem).1)
  · exact Doc.walkMeasure_part (Doc.isPart_of_entry (Doc.field?_mem _hi))
  · rename_i hmem
    exact Doc.walkMeasure_part
      (Doc.IsPart.of_opened (_ho ▸ Doc.isPart_of_entry hmem) (Doc.field?_mem _hp))
  · exact Doc.walkMeasure_part (Doc.isPart_loop _ _)

/-- The shape of a schema. -/
def shapeOf (root schema : Doc) : Outcome Shape :=
  shapeFrom root schema []

end Schema

end ApiSnippets
