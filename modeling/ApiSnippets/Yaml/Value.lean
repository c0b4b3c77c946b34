import ApiSnippets.Doc
import ApiSnippets.Yaml.Content
/-!
# YAML values

The document a YAML text denotes. Values without loops are built from the
leaves upwards; what is left then leads into a loop and is unrolled to a
depth that no description needs.
-/

namespace ApiSnippets

namespace Yaml

/-- Values by the numbers of their nodes, as far as they are known. -/
abbrev Values := Array (Option Doc)

namespace Values

/-- The value of a node. -/
def at? (vs : Values) (id : Nat) : Option Doc :=
  vs[id]?.getD none

/-- The value with some content, if the values of its parts are known. -/
def ofContent? (vs : Values) : Content → Option Doc
  | .scalar s => some (.scalar s)
  | .list items => (items.mapM vs.at?).map .list
  | .map es => (es.mapM fun e => (vs.at? e.2).map fun v => (e.1, v)).map .map
  | .set ms => some (.set ms)
  | .pairs ps =>
    (ps.mapM fun (first, second) => do
      pure (Doc.pair (← vs.at? first) (← vs.at? second))).map .list

/-- The values with those that their parts determine. -/
def grown (contents : Array (Option Content)) (vs : Values) : Values :=
  vs.mapIdx fun id v => v.or ((contents[id]?.getD none).bind vs.ofContent?)

/-- The number of values that are known. -/
def known (vs : Values) : Nat :=
  vs.countP Option.isSome

/-- The values that can be built from the leaves upwards. The fuel bounds the
number of levels. -/
def settled (contents : Array (Option Content)) : Nat → Values → Values
  | 0, vs => vs
  | n + 1, vs =>
    let more := vs.grown contents
    if more.known = vs.known then vs else settled contents n more

/-- Every value, unrolled to a depth where it leads into a loop. -/
def unrolled (contents : Array (Option Content)) (vs : Values) : Nat → Values
  | 0 => vs.map fun v => v.or (some .endless)
  | n + 1 =>
    let inner := unrolled contents vs n
    vs.mapIdx fun id v =>
      v.or (((contents[id]?.getD none).bind inner.ofContent?).map (Doc.loop id))

end Values

/-- The depth to which values that lead into a loop are unrolled. -/
def loopDepth : Nat := 120

/-- The value of a node. -/
def valueOf (contents : Array (Option Content)) (id : Nat) : Doc :=
  let vs := Values.settled contents (contents.size + 1) (Array.replicate contents.size none)
  match vs.at? id with
  | some v => v
  | none => ((Values.unrolled contents vs loopDepth).at? id).getD .endless

/-- **The document a YAML text denotes**, null for an empty text. -/
def read (s : String) : Except ReadFault Doc := do
  match ← graph s.toList with
  | (_, none) => pure .null
  | (nodes, some root) =>
    let contents ← contentsOf nodes root
    pure (valueOf contents root)

end Yaml

end ApiSnippets
