import ApiSnippets.Fault
import ApiSnippets.Json.Reader
import ApiSnippets.Yaml.Value
/-!
# Reading description documents

A description is a mapping written in JSON or in YAML. A hint may name the
format; without one the text is read as JSON first and as YAML when it is no
JSON.
-/

namespace ApiSnippets

/-- What is known about the format of a text. -/
inductive FormatHint where
  | none
  | json
  | yaml
  deriving DecidableEq, Repr

namespace Doc

/-- A document that is a mapping. -/
def asMapping (v : Doc) : Outcome Doc :=
  if v.isMap then .ok v else .error (.index (.notMapping v.typeName))

/-- The fault of a text that gives no document. Only a text that is not YAML
is reported; a value that does not exist is a defect. -/
def yamlFault : Yaml.ReadFault → Fault
  | .malformed => .index .invalidDocument
  | .noValue => .defect .value
  | .beyond => .defect .overflow
  | .unknownWord => .defect .name
  | .notDate => .defect .part
  | .notText => .defect .type
  | .emptyNumber => .defect .position
  | .endless => .defect .recursion

/-- The mapping a YAML text denotes. -/
def parseYaml (content : String) : Outcome Doc :=
  match Yaml.read content with
  | .ok null => .error (.index (.notMapping "empty document"))
  | .ok v => v.asMapping
  | .error e => .error (yamlFault e)

/-- **The mapping a text denotes.** -/
def parse (hint : FormatHint) (content : String) : Outcome Doc :=
  if hint = .yaml then parseYaml content
  else
    match Json.read content with
    | .ok v => (ofJson v).asMapping
    | .error .tooLong => .error (.defect .value)
    | .error .malformed =>
      if hint = .json then .error (.index .invalidJson) else parseYaml content

end Doc

end ApiSnippets
