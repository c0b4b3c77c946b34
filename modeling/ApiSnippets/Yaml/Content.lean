import ApiSnippets.Yaml.Literal
import ApiSnippets.Yaml.Merge
/-!
# The contents of YAML values

What the values of a graph consist of. Collections are filled level by level:
a node that is met gets its value at once when it is a scalar, while a
collection waits until everything around it is filled. So of two faults in a
text the one on the upper level is found first, and a collection that is part
of itself is there already when it is met inside.
-/

namespace ApiSnippets

namespace Yaml

namespace Read

/-! ## Meeting nodes -/

/-- Notes what the value of a node consists of. -/
def settle (id : Nat) (c : Content) : Read Unit :=
  modify fun s => { s with contents := s.contents.setIfInBounds id (some c) }

/-- Notes an empty collection that waits to be filled. -/
def await (id : Nat) (c : Content) : Read Unit := do
  settle id c
  modify fun s => { s with waiting := id :: s.waiting }

/-- The first value among pairs whose key marks it as the value of all. -/
def markedValue? : List (Nat × Nat) → Read (Option Nat)
  | [] => pure none
  | (key, value) :: pairs => do
    if (← node key).tag = .value then pure (some value) else markedValue? pairs

/-- The text of a scalar. A mapping stands for the value that is marked in
it. -/
def textOf : Nat → Nat → Read String
  | 0, _ => throw .endless
  | n + 1, id => do
    match (← node id).body with
    | .scalar s => pure s
    | .sequence _ => throw .malformed
    | .mapping pairs =>
      match ← markedValue? pairs with
      | some value => textOf n value
      | none => throw .malformed

/-- Meets a node whose tag is that of a scalar. -/
def meetScalar (id : Nat) (n : Node) : Read Unit := do
  let s ← textOf ((← get).nodes.size + 1) id
  match n.tag, n.body with
  | .date, .mapping _ => throw .notText
  | tag, _ =>
    let v ← scalarOf tag s
    settle id (.scalar v)

/-- Meets a node, which has a value from then on. -/
def meet (id : Nat) : Read Unit := do
  if ((← get).contents[id]?.getD none).isNone then
    let n ← node id
    match n.tag with
    | .list => await id (.list [])
    | .map => await id (.map [])
    | .set => await id (.set [])
    | .pairs => await id (.pairs [])
    | .merge => throw .malformed
    | .value => throw .malformed
    | .unknown => throw .malformed
    | _ => meetScalar id n

/-- Meets a node that is a key. A collection is none. -/
def meetKey (id : Nat) : Read Scalar := do
  meet id
  match (← get).contents[id]?.getD none with
  | some (.scalar s) => pure s
  | _ => throw .malformed

/-! ## Filling collections -/

/-- The entries of a mapping, met in turn. -/
def entriesOf (id : Nat) : Read (Entries Scalar Nat) := do
  match (← node id).body with
  | .mapping _ =>
    mergeIn id
    let pairs ← (← pairsOf id).mapM fun p => do
      let key ← meetKey p.1
      meet p.2
      pure (key, p.2)
    pure (Entries.ofPairs pairs)
  | _ => throw .malformed

/-- The items of a sequence. -/
def itemsOf (id : Nat) : Read (List Nat) := do
  match (← node id).body with
  | .sequence items => pure items
  | _ => throw .malformed

/-- The one pair of a mapping that has no other. -/
def onlyPair (id : Nat) : Read (Nat × Nat) := do
  match (← node id).body with
  | .mapping [p] => pure p
  | _ => throw .malformed

/-- The members of a set in their order: natural numbers ascend. -/
def inOrder (ms : List Scalar) : List Scalar :=
  if ms.all fun s => s.whole?.any (0 ≤ ·) then
    ms.mergeSort fun a b => decide (a.whole?.getD 0 ≤ b.whole?.getD 0)
  else ms

/-- What a waiting collection consists of. -/
def filled (id : Nat) : Read Content := do
  match (← node id).tag with
  | .map => Content.map <$> entriesOf id
  | .set =>
    let es ← entriesOf id
    pure (.set (inOrder (Entries.keys es)))
  | .pairs =>
    let pairs ← (← itemsOf id).mapM fun item => do
      let p ← onlyPair item
      meet p.1
      meet p.2
      pure p
    pure (.pairs pairs)
  | _ =>
    let items ← itemsOf id
    items.forM meet
    pure (.list items)

/-- Fills a waiting collection. -/
def fill (id : Nat) : Read Unit := do
  settle id (← filled id)

/-- Fills all waiting collections, then those that came to wait meanwhile. The
fuel bounds the number of levels. -/
def fillAll : Nat → Read Unit
  | 0 => pure ()
  | n + 1 => do
    let ids := (← get).waiting.reverse
    if !ids.isEmpty then
      modify fun s => { s with waiting := [] }
      ids.forM fill
      fillAll n

end Read

/-- What the values of nodes consist of, as far as the root leads to them. -/
def contentsOf (nodes : Array Node) (root : Nat) : Except ReadFault (Array (Option Content)) := do
  let start : Reading :=
    { nodes := nodes
      merged := Array.replicate nodes.size false
      contents := Array.replicate nodes.size none }
  let (_, s) ← (do
    Read.meet root
    Read.fillAll (nodes.size + 1)).run start
  pure s.contents

end Yaml

end ApiSnippets
