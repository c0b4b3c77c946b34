import ApiSnippets.Entries
import ApiSnippets.Scalar
import ApiSnippets.Yaml.Graph
/-!
# Merged mappings

A merge key brings the pairs of other mappings into its own: they come before
the pairs that are there, so that later ones win. Merging changes the nodes
themselves, and it happens when a mapping is filled; a mapping may even bring
in itself, in the state that it is in.
-/

namespace ApiSnippets

namespace Yaml

/-- What the value of a node consists of; parts are given by their numbers. -/
inductive Content where
  | scalar (s : Scalar)
  | list (items : List Nat)
  | map (entries : Entries Scalar Nat)
  | set (members : List Scalar)
  | pairs (pairs : List (Nat × Nat))
  deriving Inhabited

/-- The state of reading values off nodes: the nodes as merging has left
them, the mappings in which merging is done, what values consist of so far,
and the collections that wait to be filled, the latest first. -/
structure Reading where
  nodes : Array Node
  merged : Array Bool
  contents : Array (Option Content)
  waiting : List Nat := []

/-- A step of reading values. -/
abbrev Read := StateT Reading (Except ReadFault)

namespace Read

/-! ## Nodes -/

/-- The node with a number. -/
def node (id : Nat) : Read Node := do
  pure ((← get).nodes[id]?.getD default)

/-- Changes a node. -/
def change (id : Nat) (f : Node → Node) : Read Unit :=
  modify fun s => { s with nodes := s.nodes.modify id f }

/-- The pairs of a mapping. -/
def pairsOf (id : Nat) : Read (List (Nat × Nat)) := do
  match (← node id).body with
  | .mapping pairs => pure pairs
  | _ => pure []

/-- Changes the pairs of a mapping. -/
def changePairs (id : Nat) (f : List (Nat × Nat) → List (Nat × Nat)) : Read Unit :=
  change id fun n =>
    match n.body with
    | .mapping pairs => { n with body := .mapping (f pairs) }
    | _ => n

/-- Whether merging is done in a mapping. -/
def isMerged (id : Nat) : Read Bool := do
  pure ((← get).merged[id]?.getD false)

/-! ## Merging -/

/-- The pairs of the mapping with a number after merging in it. -/
def mergedPairs (merge : Nat → Read Unit) (id : Nat) : Read (List (Nat × Nat)) := do
  match (← node id).body with
  | .mapping _ =>
    merge id
    pairsOf id
  | _ => throw .malformed

/-- The pairs that the value of a merge key brings: those of a mapping, or of
the mappings in a list, later ones first. -/
def broughtBy (merge : Nat → Read Unit) (id : Nat) : Read (List (Nat × Nat)) := do
  match (← node id).body with
  | .sequence items =>
    let brought ← items.mapM (mergedPairs merge)
    pure brought.reverse.flatten
  | _ => mergedPairs merge id

/-- The pairs that the merge keys of a mapping bring, from a place on. Merge
keys are dropped, and a value key counts as text. A mapping that brings in
itself has no merge keys left afterwards. -/
def broughtFrom (merge : Nat → Read Unit) (id : Nat) : Nat → Nat → Read (List (Nat × Nat))
  | _, 0 => pure []
  | place, steps + 1 => do
    if ← isMerged id then pure []
    else
      match (← pairsOf id)[place]? with
      | none => pure []
      | some (key, value) =>
        match (← node key).tag with
        | .merge =>
          changePairs id (·.eraseIdx place)
          let first ← broughtBy merge value
          let more ← broughtFrom merge id place steps
          pure (first ++ more)
        | .value =>
          change key fun n => { n with tag := .text }
          broughtFrom merge id (place + 1) steps
        | _ => broughtFrom merge id (place + 1) steps

/-- Merges in the mapping with a number. The fuel bounds the nesting of
mappings that bring in others; every level uses up a merge key. -/
def merge : Nat → Nat → Read Unit
  | 0, _ => throw .malformed
  | n + 1, id => do
    if !(← isMerged id) then
      let brought ← broughtFrom (merge n) id 0 (← pairsOf id).length
      changePairs id (brought ++ ·)
      modify fun s => { s with merged := s.merged.setIfInBounds id true }

/-- Merges in the mapping with a number. -/
def mergeIn (id : Nat) : Read Unit := do
  merge ((← get).nodes.size + 1) id

end Read

end Yaml

end ApiSnippets
