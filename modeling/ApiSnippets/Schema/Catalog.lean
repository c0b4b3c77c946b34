import ApiSnippets.Schema.Classify
/-!
# The catalog of types

The named schemas of a document and the types they describe. A type has the
members of the types it is composed of, base types first and its own members
last; the walk over base types enters each component once, so a cycle of
inheritance ends.

A name is looked up as it is, then without regard to letter case, then by its
last component alone; among several candidates the nearest namespace decides.
Where something other than a mapping stands in place of the schemas, its
elements are names too, but they lead to no schema.
-/

namespace ApiSnippets

/-- A document and the named schemas in it. -/
structure Catalog where
  document : Doc
  schemas : List (String × Doc)
  /-- Whether there are names that are octets instead of text. -/
  hasOctetNames : Bool := false
  /-- What stands in place of a mapping of schemas, if something does. -/
  standIn : Option Doc := none
  deriving Inhabited

namespace Catalog

/-- The names of the schemas, in the order of the document. -/
def ids (c : Catalog) : List String :=
  c.schemas.map Prod.fst

/-! ## Names -/

/-- The number of leading components two dotted names share. -/
def sharedComponents : List String → List String → Nat
  | a :: as, b :: bs => if a = b then sharedComponents as bs + 1 else 0
  | _, _ => 0

/-- How near a name is to a namespace, letter case aside. -/
def nearness (near id : String) : Nat :=
  sharedComponents (Text.pieces '.' (Text.lower (Text.leadingComponents id)))
    (Text.pieces '.' (Text.lower near))

/-- The first element with the greatest score. -/
def firstGreatest {α : Type} (score : α → Nat) : List α → Option α
  | [] => none
  | x :: xs =>
    match firstGreatest score xs with
    | none => some x
    | some y => if score x < score y then some y else some x

/-- The names with the same last component, in ascending order. -/
def candidates (ids : List String) (name : String) : List String :=
  (ids.filter fun id =>
    Text.sameLetters (Text.lastComponent id) (Text.lastComponent name)).mergeSort
      fun a b => decide (a ≤ b)

/-- The candidate for a namespace: one that lies in it, else the first of
those nearest to it. -/
def nearest (near : String) (ids : List String) : Option String :=
  match ids.find? fun id => Text.sameLetters (Text.leadingComponents id) near with
  | some id => some id
  | none => firstGreatest (nearness near) ids

/-- Whether a name is there as it is. A text in place of the schemas contains
the names that are part of it. -/
def contains (c : Catalog) (name : String) : Bool :=
  match c.standIn with
  | some (.text s) => Text.contains name s
  | _ => c.ids.contains name

/-- The schema a name stands for, if its last component has to be compared. -/
def findShort? (c : Catalog) (name : String) (near : Option String) : Option String :=
  match near.filter (· ≠ "") with
  | some n => nearest n (candidates c.ids name)
  | none => (candidates c.ids name).head?

/-- The schema a name stands for. Of names that differ in letter case only
the last one counts. Names that are octets have no components. -/
def find? (c : Catalog) (name : String) (near : Option String) : Outcome (Option String) :=
  if c.contains name then .ok (some name)
  else
    match c.ids.reverse.find? fun id => Text.sameLetters id name with
    | some id => .ok (some id)
    | none =>
      if c.hasOctetNames then .error (.defect .type) else .ok (c.findShort? name near)

/-! ## Inheritance -/

/-- The number of schemas that have not been entered. -/
def unentered (c : Catalog) (seen : List String) : Nat :=
  (c.ids.filter fun id => !seen.contains id).length

theorem mem_ids_of_lookup {c : Catalog} {id : String} {v : Doc}
    (h : c.schemas.lookup id = some v) : id ∈ c.ids := by
  unfold ids
  generalize c.schemas = es at h
  induction es with
  | nil => simp at h
  | cons e es ih =>
    obtain ⟨k, w⟩ := e
    simp only [List.lookup_cons] at h
    by_cases hk : id == k
    · simp at hk; simp [hk]
    · simp [hk] at h; simp [ih h]

theorem unentered_lt {c : Catalog} {id : String} {seen : List String} (hid : id ∈ c.ids)
    (hs : id ∉ seen) : c.unentered (id :: seen) < c.unentered seen :=
  Doc.length_unseen_lt hid hs

/-- What the composition of a type has contributed so far. The properties are
under the keys of the document, which become names when the type is done. -/
structure Inherited where
  properties : Entries Scalar Shape := []
  baseType : Option String := none
  title : Option String := none

/-- The entries of a field that holds a mapping; an absent or empty one has
none. -/
def fieldEntries (name : String) (es : Schema.Fields) : Outcome Schema.Fields :=
  match Doc.field? name es with
  | some v =>
    match v.opened with
    | .map ps => .ok ps
    | _ => if v.isTruthy then .error (.defect .part) else .ok []
  | none => .ok []

/-- The properties a schema declares itself. -/
def ownProperties (c : Catalog) (es : Schema.Fields) : Outcome (List (Scalar × Shape)) := do
  let ps ← fieldEntries "properties" es
  Outcome.mapAll
    (fun p : Scalar × Doc => do
      let s ← Schema.shapeOf c.document p.2
      pure (p.1, s)) ps

/-- An enumeration as a type. -/
def enumType (id : String) (es : Schema.Fields) : Outcome TypeDescriptor := do
  let (members, flags) ← Schema.enumInfo es
  pure { name := id, namespaceName := Text.leadingComponents id, title := Schema.titleOf es,
         kind := .enum, members := members, flags := flags }

/-- What the properties that a schema declares itself contribute. -/
def Inherited.addOwn (c : Catalog) (acc : Inherited) (es : Schema.Fields) : Outcome Inherited := do
  let own ← c.ownProperties es
  pure { acc with properties := Entries.putAll acc.properties own }

/-- What an inline member of a composition contributes. -/
def Inherited.addInline (c : Catalog) (acc : Inherited) (es : Schema.Fields) : Outcome Inherited :=
  Inherited.addOwn c { acc with title := acc.title.or (Schema.titleOf es) } es

/-- What a base type contributes, none when the component is no schema. The
first base type with a name is remembered. -/
def Inherited.addBase (acc : Inherited) (id : String) (base : Option TypeDescriptor) : Inherited :=
  { acc with
    baseType := if acc.baseType.any (· ≠ "") then acc.baseType else some id
    properties := Entries.putAll acc.properties
      (((base.map (·.properties)).getD []).map fun p => (.text p.1, p.2)) }

mutual

/-- The type a schema describes, none when its value is no schema. `seen`
holds the components that are being entered, and the schema is not one of
them. A property whose name is no text is a defect of the whole type. -/
def buildType (c : Catalog) (id : String) (seen : List String) (_fresh : id ∉ seen) :
    Outcome (Option TypeDescriptor) :=
  if c.standIn.isSome then .error (.defect .part)
  else
    match _h : c.schemas.lookup id with
    | none => .ok none
    | some v =>
      match v.opened with
      | .map es => do
        if Schema.isEnum es then
          let t ← enumType id es
          pure (some t)
        else
          let members ← Doc.elementsUnder es ["allOf"]
          let acc ← inherit c (id :: seen) members { title := Schema.titleOf es }
          let acc ← acc.addOwn c es
          let properties ← Schema.namedProperties acc.properties
          pure (some
            { name := id
              namespaceName := Text.leadingComponents id
              baseType := acc.baseType
              title := acc.title
              properties := properties })
      | _ => .ok none
termination_by (c.unentered seen, 0)
decreasing_by exact Prod.Lex.left _ _ (unentered_lt (mem_ids_of_lookup _h) _fresh)

/-- What the members of a composition contribute, in their order. A base type
that is being entered already contributes nothing. -/
def inherit (c : Catalog) (seen : List String) : List Doc → Inherited → Outcome Inherited
  | [], acc => .ok acc
  | m :: members, acc =>
    match m.opened with
    | .map es =>
      match Doc.field? Pointer.key es with
      | some ref => do
        let r ← Pointer.refText ref
        match Pointer.schemaId? r with
        | none => inherit c seen members acc
        | some id =>
          if h : id ∈ seen then inherit c seen members acc
          else
            let base ← buildType c id seen h
            inherit c seen members (acc.addBase id base)
      | none => do
        let acc ← acc.addInline c es
        inherit c seen members acc
    | _ => inherit c seen members acc
termination_by members => (c.unentered seen, members.length + 1)
decreasing_by
  all_goals exact Prod.Lex.right _ (by simp)

end

/-! ## Description -/

/-- **The type a name stands for**, near a namespace when it is ambiguous. A
hash sign in front of the name is ignored. -/
def describe (c : Catalog) (name : String) (near : Option String) :
    Outcome (Option TypeDescriptor) := do
  match ← c.find? (String.ofList (name.toList.dropWhile (· == '#'))) near with
  | some id => c.buildType id [] (by simp)
  | none => pure none

/-- The shape of a schema of the document. -/
def shapeOf (c : Catalog) (schema : Doc) : Outcome Shape :=
  Schema.shapeOf c.document schema

end Catalog

end ApiSnippets
