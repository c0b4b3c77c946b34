import ApiSnippets.Doc
import ApiSnippets.Resolution.Summary
/-!
# Details of resolved requests

A resolved request for a reader, in two forms: one JSON object
(`ResolvedRequest.details`) and a table with a row for each fact
(`ResolvedRequest.rows`). Of headers and of query options with one name the
last one is shown, in the place of the first.
-/

namespace ApiSnippets

/-- A member with a text, when there is one. -/
def textMember (name : String) (text : Option String) : List (String × Json) :=
  (text.map fun s => (name, Json.str s)).toList

/-- A member that is shown when it is true. -/
def truthMember (name : String) (b : Bool) : List (String × Json) :=
  if b then [(name, .bool true)] else []

/-! ## Segments -/

/-- An argument, without what is usual. -/
def BoundParameter.details (p : BoundParameter) : Json :=
  .obj ([("name", .str p.name), ("value", .str p.value)] ++
    textMember "kind" (if p.kind == .string then none else some p.kind.name) ++
    truthMember "placeholder" p.placeholder)

/-- A member with arguments, when there are any. -/
def argumentsMember (ps : List BoundParameter) : List (String × Json) :=
  if ps.isEmpty then [] else [("bound_params", .arr (ps.map BoundParameter.details))]

namespace SegmentRole

/-- The name of what a segment does. -/
def kindName : SegmentRole → String
  | literal _ _ => "literal"
  | parameter _ => "path_parameter"
  | keyed _ _ => "indexed_collection"
  | alternate _ _ _ => "indexed_collection"
  | action _ _ => "action"
  | function _ _ => "function"
  | reference => "reference"

/-- The particulars of what a segment does. -/
def details : SegmentRole → List (String × Json)
  | literal name written => ("name", .str name) :: textMember "raw" written
  | parameter name => [("name", .str name)]
  | keyed collection key => [("collection_name", .str collection), ("key_param_name", .str key)]
  | alternate collection key value =>
    [("collection_name", .str collection), ("key_param_name", .str key),
      ("alternate_key", .bool true)] ++ textMember "key_value" value
  | action name ps => ("name", .str name) :: argumentsMember ps
  | function name ps => ("name", .str name) :: argumentsMember ps
  | reference => []

end SegmentRole

namespace PathSegment

/-- The particulars of a segment. -/
def details (s : PathSegment) : List (String × Json) :=
  textMember "type_cast" s.typeCast ++ s.role.details

/-- A segment as a JSON object. -/
def toJson (s : PathSegment) : Json :=
  .obj (s.details ++ [("kind", .str s.role.kindName)])

/-- A segment in one line. -/
def label (s : PathSegment) : String :=
  if s.details.isEmpty then s.role.kindName
  else
    s.role.kindName ++ "(" ++
      String.intercalate ", " (s.details.map fun p => p.1 ++ "=" ++ p.2.asText) ++ ")"

end PathSegment

/-! ## Query options -/

namespace OptionValue

/-- The value of an option as a JSON value. -/
def toJson : OptionValue → Json
  | flag b => .bool b
  | int n => .int n
  | num x => .num x
  | text s => .str s
  | list items => .arr (items.map .str)

/-- The value of an option in one line. -/
def label : OptionValue → String
  | list [item] => "(" ++ Text.shown item ++ ",)"
  | list items => "(" ++ String.intercalate ", " (items.map Text.shown) ++ ")"
  | v => v.toJson.asText

end OptionValue

namespace ResolvedRequest

/-- The values of the query options, by name as written. -/
def options (r : ResolvedRequest) : Entries String OptionValue :=
  Entries.ofPairs (r.query.map fun o => (o.rawName, o.value))

/-- The values of the headers, by name. -/
def headerValues (r : ResolvedRequest) : Entries String String :=
  Entries.ofPairs (r.headers.map fun h => (h.name, h.value))

/-! ## The two forms -/

/-- A resolved request as a JSON object. -/
def details (r : ResolvedRequest) : Json :=
  let s := r.summary
  .obj [("method", .str s.method), ("api_version", .str s.version), ("path", .str s.path),
    ("template_path", .str s.template), ("operation_id", .str s.operationId),
    ("operation_type", .str s.operationType), ("segments", .arr (r.segments.map PathSegment.toJson)),
    ("request_schema", .str s.request), ("response_schema", .str s.response),
    ("query_options", .obj (r.options.map fun p => (p.1, p.2.toJson))),
    ("headers", .obj (r.headerValues.map fun p => (p.1, .str p.2)))]

/-- The rows for segments, counted from a number. -/
def segmentRows : Nat → List PathSegment → List (List String)
  | _, [] => []
  | n, s :: ss => ["Segment " ++ toString n, s.label] :: segmentRows (n + 1) ss

/-- A resolved request as rows of a name and a text. -/
def rows (r : ResolvedRequest) : List (List String) :=
  let s := r.summary
  [["Method", s.method], ["API version", s.version], ["Template", s.template],
    ["Operation", s.operationId ++ " (" ++ s.operationType ++ ")"], ["Request body", s.request],
    ["Response", s.response]] ++ segmentRows 1 r.segments ++
    r.options.map (fun p => ["Query " ++ p.1, p.2.label]) ++
    r.headerValues.map fun p => ["Header " ++ p.1, p.2]

end ResolvedRequest

end ApiSnippets
