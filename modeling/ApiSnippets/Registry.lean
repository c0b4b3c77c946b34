import ApiSnippets.Entries
import ApiSnippets.Fault
import ApiSnippets.Text.Case
/-!
# The registry of versions

Which index serves which API version. Every version has a cell that knows its
source; the value is built from the source when it is first asked for. A value
once built is kept, a failure is not. A registry may have an override, whose
cell then serves every version.

The registry is independent of what is built and from what: `build` takes the
source and a state of the surroundings, and gives an outcome and the state
after it.
-/

namespace ApiSnippets

variable {S A W : Type}

/-- A source and the value built from it, once there is one. -/
structure Cell (S A : Type) where
  source : S
  value : Option A := none

/-- The value of a cell, built if there is none. -/
def Cell.get (build : S → W → Outcome A × W) (c : Cell S A) (w : W) :
    Outcome A × Cell S A × W :=
  match c.value with
  | some a => (.ok a, c, w)
  | none =>
    match build c.source w with
    | (.ok a, w) => (.ok a, { c with value := some a }, w)
    | (.error e, w) => (.error e, c, w)

/-- Cells by version in lower case, and the cell that overrides them. -/
structure Registry (S A : Type) where
  cells : Entries String (Cell S A)
  override : Option (Cell S A) := none

namespace Registry

/-- A registry of sources. Of versions that differ in letter case the last
one counts. -/
def ofSources (sources : List (String × S)) (override : Option S) : Registry S A :=
  ⟨Entries.ofPairs (sources.map fun p => (Text.lower p.1, ⟨p.2, none⟩)),
    override.map fun s => ⟨s, none⟩⟩

/-- The versions with a cell of their own, in ascending order. -/
def versions (r : Registry S A) : List String :=
  (Entries.keys r.cells).mergeSort fun a b => decide (a ≤ b)

/-- Whether there is an override. -/
def hasOverride (r : Registry S A) : Bool :=
  r.override.isSome

/-- Whether a version can be served. -/
def supports (r : Registry S A) (version : String) : Bool :=
  r.hasOverride || Entries.has r.cells (Text.lower version)

/-- The value that serves a version, with the registry and the surroundings
after it was asked for. -/
def get (build : S → W → Outcome A × W) (r : Registry S A) (version : String) (w : W) :
    Outcome A × Registry S A × W :=
  match r.override with
  | some c =>
    let (result, c, w) := c.get build w
    (result, { r with override := some c }, w)
  | none =>
    match Entries.get? r.cells (Text.lower version) with
    | some c =>
      let (result, c, w) := c.get build w
      (result, { r with cells := Entries.put (Text.lower version) c r.cells }, w)
    | none => (.error (.version version r.versions), r, w)

end Registry

end ApiSnippets
