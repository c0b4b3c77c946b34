import ApiSnippets.Code.Language
import ApiSnippets.Code.Scan
/-!
# Imports of snippets

What a snippet imports: what every snippet of the language needs, then what
its configuration needs, then the types its body names and what its literals
depend on. Each group is in ascending order, and no import is repeated.

The imports follow from the request and the body. Given the text of the
snippet, a type that the text constructs and the index knows is imported,
too.
-/

namespace ApiSnippets

namespace Imports

variable (s : ImportStyle) (r : ResolvedRequest)

/-- Imports in the order of their lines, each once. -/
def sorted (imports : List Import) : List Import :=
  imports.eraseDups.mergeSort fun a b => decide (s.write a ≤ s.write b)

/-- Groups in turn, each without what an earlier one has. -/
def ordered (before : List Import) : List (List Import) → List Import
  | [] => before
  | imports :: more =>
    ordered (before ++ (sorted s imports).filter fun i => !before.contains i) more

/-- The imports that a body needs. -/
def ofBody (g : BodyGraph) : List Import :=
  (s.types g.root).map (s.model r.segments) ++ g.root.walk.flatMap s.literal

/-- The type that a name in the text stands for. The bodies of operations are
types of their own. -/
def typeNamed? (name : String) : Outcome (Option TypeRef) :=
  if Text.hasEnd Body.classEnding name then .ok (some { name := name, synthesized := true })
  else do
    let t ← r.index.describeType name none
    pure (t.map fun t => TypeRef.ofName t.name)

/-- The imports of types that a text constructs and a body does not name. -/
def ofText (body : Option BodyGraph) (text : String) : Outcome (List Import) := do
  let known := ((body.map fun g => s.types g.root).getD []).map fun t => Text.lower t.shortName
  let names := (Scan.typeNames text).filter fun name => !known.contains (Text.lower name)
  let types ← Outcome.mapAll (typeNamed? r) names
  pure ((types.filterMap id).map (s.model r.segments))

/-- **The import lines of a snippet**, with the help of its text when there is
one. -/
def resolve (l : Language) (body : Option BodyGraph) (text : Option String) :
    Outcome (List String) :=
  match l.imports with
  | none => .ok []
  | some s => do
    let recovered ←
      match text with
      | some t => ofText s r body t
      | none => pure []
    let configuration := if r.hasConfiguration then s.configuration r else []
    let models := (body.map (ofBody s r)).getD [] ++ recovered
    pure (s.layout (ordered s [] [s.root, configuration, models]))

end Imports

end ApiSnippets
