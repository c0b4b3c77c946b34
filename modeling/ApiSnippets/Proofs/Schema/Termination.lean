import ApiSnippets.Proofs.Schema.Inheritance
import ApiSnippets.Proofs.Schema.Reading
/-!
# Reading ends

References of a document may form any cycles, and reading a schema or
describing a type ends all the same. Building a type is a recursion like
reading a schema is: one level of it (`buildLevel`) is a function of the types
built for the components that it enters and of the shapes of properties. Along
nested calls no reference is followed and no component entered twice; so a
number of levels that the size of the document gives is enough, whatever
stands in place of the levels below (`reading_ends`).
-/

namespace ApiSnippets

/-! ## One level of building a type -/

namespace Catalog

open Schema (Fields reading levels)

/-- A component about to be entered, and those being entered already. -/
structure Entry where
  id : String
  seen : List String
  fresh : id ∉ seen

/-- The components being entered once a component is. -/
def Entry.entered (e : Entry) : List String :=
  e.id :: e.seen

/-- What a schema's own properties contribute, when they are read. -/
def ownLevel (shape : Doc → Outcome Shape) (acc : Inherited) (es : Fields) :
    Outcome Inherited := do
  let ps ← fieldEntries "properties" es
  let own ← Outcome.mapAll (fun p => do
    let s ← shape p.2
    pure (p.1, s)) ps
  pure { acc with properties := Entries.putAll acc.properties own }

/-- What the members of a composition contribute, when properties are read and
base types built. -/
def inheritLevel (shape : Doc → Outcome Shape)
    (build : Entry → Outcome (Option TypeDescriptor)) (seen : List String) :
    List Doc → Inherited → Outcome Inherited
  | [], acc => .ok acc
  | m :: members, acc =>
    match m.opened with
    | .map es =>
      match Doc.field? Pointer.key es with
      | some ref => do
        let r ← Pointer.refText ref
        match Pointer.schemaId? r with
        | none => inheritLevel shape build seen members acc
        | some id =>
          if h : id ∈ seen then inheritLevel shape build seen members acc
          else
            let base ← build ⟨id, seen, h⟩
            inheritLevel shape build seen members (acc.addBase id base)
      | none => do
        let acc ← ownLevel shape { acc with title := acc.title.or (Schema.titleOf es) } es
        inheritLevel shape build seen members acc
    | _ => inheritLevel shape build seen members acc

/-- What building makes of a component. -/
def buildLevel (c : Catalog) (shape : Doc → Outcome Shape)
    (build : Entry → Outcome (Option TypeDescriptor)) (e : Entry) :
    Outcome (Option TypeDescriptor) :=
  if c.standIn.isSome then .error (.defect .part)
  else
    match c.schemas.lookup e.id with
    | none => .ok none
    | some v =>
      match v.opened with
      | .map es => do
        if Schema.isEnum es then
          let t ← enumType e.id es
          pure (some t)
        else
          let members ← Doc.elementsUnder es ["allOf"]
          let acc ← inheritLevel shape build e.entered members { title := Schema.titleOf es }
          let acc ← ownLevel shape acc es
          let properties ← Schema.namedProperties acc.properties
          pure (some
            { name := e.id
              namespaceName := Text.leadingComponents e.id
              baseType := acc.baseType
              title := acc.title
              properties := properties })
      | _ => .ok none

variable {c : Catalog}

theorem addOwn_eq_ownLevel (acc : Inherited) (es : Fields) :
    acc.addOwn c es = ownLevel c.shapeOf acc es := by
  simp only [Inherited.addOwn, ownProperties, ownLevel, bind_assoc, shapeOf]

theorem inherit_eq_inheritLevel (seen : List String) (members : List Doc) (acc : Inherited) :
    c.inherit seen members acc =
      inheritLevel c.shapeOf (fun e => c.buildType e.id e.seen e.fresh) seen members acc := by
  induction members generalizing acc with
  | nil => rw [inherit, inheritLevel]
  | cons m members ih =>
    rw [inherit]
    simp only [ih, Inherited.addInline, addOwn_eq_ownLevel]
    rfl

/-- A type is built level by level. -/
theorem buildType_eq_buildLevel (e : Entry) :
    c.buildType e.id e.seen e.fresh =
      c.buildLevel c.shapeOf (fun e => c.buildType e.id e.seen e.fresh) e := by
  rw [buildType, buildLevel]
  simp only [inherit_eq_inheritLevel, addOwn_eq_ownLevel]
  split
  · rfl
  split
  · next hl => simp only [hl]
  · next v hl =>
    simp only [hl]
    rfl

/-! ## The calls of building a type -/

/-- A schema under the `properties` of another. -/
def IsProperty (es : Fields) (v : Doc) : Prop :=
  ∃ ps, fieldEntries "properties" es = .ok ps ∧ ∃ p ∈ ps, p.2 = v

theorem IsProperty.isPart {es : Fields} {v : Doc} (h : IsProperty es v) :
    Doc.IsPart v (.map es) := by
  obtain ⟨ps, hps, p, hp, rfl⟩ := h
  unfold fieldEntries at hps
  split at hps
  · next w hw =>
    split at hps
    · next ho =>
      obtain rfl := Except.ok.inj hps
      exact .of_opened (ho ▸ Doc.isPart_of_entry hp) (Doc.field?_mem hw)
    · split at hps
      · cases hps
      · obtain rfl := Except.ok.inj hps
        cases hp
  · obtain rfl := Except.ok.inj hps
    cases hp

/-- The depth of the deepest schema. -/
def depth (c : Catalog) : Nat :=
  Doc.depthEntries (c.schemas.map fun e => (.text e.1, e.2))

theorem depth_le_of_objectFields? {id : String} {es : Fields} (h : c.objectFields? id = some es) :
    (Doc.map es).depth ≤ c.depth := by
  unfold objectFields? at h
  cases hl : c.schemas.lookup id with
  | none => simp [hl] at h
  | some v =>
    obtain ⟨before, after, hmem, -⟩ := List.lookup_eq_some_iff.1 hl
    have hv : v.depth ≤ c.depth :=
      Doc.depth_le_entries (k := .text id) (List.mem_map.2 ⟨(id, v), by simp [hmem], rfl⟩)
    have ho : v.opened = .map es := by
      split at h <;> simp_all
    rcases Doc.opened_eq_or_isPart v with he | hp
    · rwa [← ho, he]
    · exact (ho ▸ hp.1.le).trans hv

/-- The calls nested in building a type, with the component that one enters:
one of those that the type extends and that are not being entered. -/
def BuildCalls (c : Catalog) (e : Entry) (visit : Option String) (next : Entry) : Prop :=
  visit = some next.id ∧ next.seen = e.entered ∧ c.Extends e.id next.id

variable {shape shape' : Doc → Outcome Shape}
  {build build' : Entry → Outcome (Option TypeDescriptor)}

theorem ownLevel_congr {es : Fields} (h : ∀ v, IsProperty es v → shape v = shape' v)
    (acc : Inherited) : ownLevel shape acc es = ownLevel shape' acc es := by
  refine Outcome.bind_congr_of_ok fun ps hps => ?_
  refine congrArg (· >>= _) (Outcome.mapAll_congr fun p hp => ?_)
  rw [h p.2 ⟨ps, hps, p, hp, rfl⟩]

theorem inheritLevel_congr {seen : List String} {members : List Doc}
    (hshape : ∀ m ∈ members, ∀ fs, m.opened = .map fs → ∀ v, IsProperty fs v → shape v = shape' v)
    (hbuild : ∀ m ∈ members, ∀ fs r, m.opened = .map fs →
      Doc.field? Pointer.key fs = some (.text r) → ∀ id (h : id ∉ seen),
        Pointer.schemaId? r = some id → build ⟨id, seen, h⟩ = build' ⟨id, seen, h⟩)
    (acc : Inherited) :
    inheritLevel shape build seen members acc = inheritLevel shape' build' seen members acc := by
  induction members generalizing acc with
  | nil => rfl
  | cons m members ih =>
    replace ih := ih (fun m hm => hshape m (List.mem_cons_of_mem _ hm))
      (fun m hm => hbuild m (List.mem_cons_of_mem _ hm))
    rw [inheritLevel, inheritLevel]
    split
    · next fs hfs =>
      split
      · next ref href =>
        refine Outcome.bind_congr_of_ok fun r hr => ?_
        obtain rfl := eq_text_of_refText hr
        split
        · exact ih acc
        · next id hid =>
          split
          · exact ih acc
          · next hmem =>
            rw [hbuild m List.mem_cons_self fs r hfs href id hmem hid]
            exact Outcome.bind_congr_of_ok fun base _ => ih _
      · rw [ownLevel_congr (hshape m List.mem_cons_self fs hfs)]
        exact Outcome.bind_congr_of_ok fun acc _ => ih acc
    · exact ih acc

/-- A level depends on properties no deeper than the deepest schema, and on
the calls nested in it. -/
theorem buildLevel_congr {e : Entry} (hshape : ∀ v, v.depth ≤ c.depth → shape v = shape' v)
    (hbuild : ∀ visit next, c.BuildCalls e visit next → build next = build' next) :
    c.buildLevel shape build e = c.buildLevel shape' build' e := by
  unfold buildLevel
  split
  · rfl
  split
  · rfl
  · next v hl =>
    split
    · next es hes =>
      split
      · rfl
      · next henum =>
        have hfields : c.objectFields? e.id = some es := by simp [objectFields?, hl, hes, henum]
        -- own properties and those of inline members are parts of the schema
        have hdepth : ∀ u, Doc.IsPart u (.map es) → shape u = shape' u := fun u hu =>
          hshape u (hu.1.le.trans (depth_le_of_objectFields? hfields))
        refine Outcome.bind_congr_of_ok fun members hmembers => ?_
        rw [inheritLevel_congr ?_ ?_]
        · refine Outcome.bind_congr_of_ok fun acc _ => ?_
          rw [ownLevel_congr fun u hu => hdepth u hu.isPart]
        · intro m hm fs hfs u hu
          have hmember : Doc.IsPart m (.map es) := Doc.isPart_of_elementsUnder hmembers hm
          exact hdepth u ((Doc.IsPart.of_opened_self (hfs ▸ hu.isPart)).trans hmember)
        · intro m hm fs r hfs href id h hid
          have hmember : IsMember es fs := ⟨members, hmembers, m, hm, hfs⟩
          exact hbuild _ _ ⟨rfl, rfl, es, hfields, fs, hmember, r, href, hid⟩
    · rfl

/-- **Building a type** as a recursion, when properties are read. -/
def building (c : Catalog) (shape : Doc → Outcome Shape) :
    Recursion Entry (Outcome (Option TypeDescriptor)) where
  level := c.buildLevel shape
  Calls := c.BuildCalls
  congr := buildLevel_congr fun _ _ => rfl

theorem remembers_building (c : Catalog) (shape : Doc → Outcome Shape) :
    (c.building shape).Remembers Entry.entered := by
  rintro e visit next ⟨rfl, hseen, -⟩
  refine ⟨?_, fun r hr => ?_⟩
  · rw [Entry.entered, hseen]
    rfl
  · obtain rfl := Option.some.inj hr
    exact hseen ▸ next.fresh

theorem mem_ids_of_objectFields? {id : String} {es : Fields} (h : c.objectFields? id = some es) :
    id ∈ c.ids := by
  unfold objectFields? at h
  cases hl : c.schemas.lookup id with
  | none => simp [hl] at h
  | some v => exact mem_ids_of_lookup hl

theorem BuildCalls.unentered_lt {e next : Entry} {visit : Option String}
    (h : c.BuildCalls e visit next) : c.unentered next.seen < c.unentered e.seen := by
  obtain ⟨-, hseen, es, hfields, -⟩ := h
  rw [hseen]
  exact Catalog.unentered_lt (mem_ids_of_objectFields? hfields) e.fresh

/-- Enough levels are the building, also when properties are read by something
that reads those of the catalog alike. -/
theorem building_iterate {e : Entry} {n : Nat}
    (hshape : ∀ v, v.depth ≤ c.depth → shape v = c.shapeOf v) (hn : c.unentered e.seen < n)
    (rest : Entry → Outcome (Option TypeDescriptor)) :
    (c.building shape).level^[n] rest e = c.buildType e.id e.seen e.fresh :=
  (c.building shape).iterate_eq (f := fun e => c.buildType e.id e.seen e.fresh)
    (fun e => (buildType_eq_buildLevel e).trans
      (buildLevel_congr (fun v hv => (hshape v hv).symm) fun _ _ _ => rfl))
    (fun _ _ _ h => BuildCalls.unentered_lt h) hn rest

/-! ## Termination -/

/-- The description of a name, when types are built. -/
def describeWith (c : Catalog) (build : Entry → Outcome (Option TypeDescriptor)) (name : String)
    (near : Option String) : Outcome (Option TypeDescriptor) := do
  match ← c.find? (String.ofList (name.toList.dropWhile (· == '#'))) near with
  | some id => build ⟨id, [], List.not_mem_nil⟩
  | none => pure none

theorem describeWith_levels {n m : Nat} (hn : levels c.document c.depth ≤ n)
    (hm : c.ids.length < m) (rest : Doc × List String → Outcome Shape)
    (rest' : Entry → Outcome (Option TypeDescriptor)) (name : String) (near : Option String) :
    c.describeWith
      ((c.building fun v => (reading c.document).level^[n] rest (v, [])).level^[m] rest')
      name near = c.describe name near := by
  refine Outcome.bind_congr_of_ok fun found _ => ?_
  cases found with
  | none => rfl
  | some id =>
    have hids : c.unentered [] < m := Nat.lt_of_le_of_lt (List.length_filter_le _ _) hm
    refine building_iterate (fun v hv => ?_) hids rest'
    exact Schema.reading_iterate ((Schema.levels_mono hv).trans hn) [] rest

/-- **Reading a schema and describing a type end**, however the references of
the document lead in circles. A number of levels given by the size of the
document is enough for either, whatever stands in place of the levels below.
Reading calls that are nested in each other follow no reference twice, and
those that follow none lead to ever less deep schemas; building calls that are
nested in each other enter no component twice. -/
theorem reading_ends (c : Catalog) :
    (∀ schema seen n rest, levels c.document schema.depth ≤ n →
      (reading c.document).level^[n] rest (schema, seen) =
        Schema.shapeFrom c.document schema seen) ∧
    (∀ name near n m rest rest', levels c.document c.depth ≤ n → c.ids.length < m →
      c.describeWith
        ((c.building fun v => (reading c.document).level^[n] rest (v, [])).level^[m] rest')
        name near = c.describe name near) ∧
    (∀ schema seen path v seen', (reading c.document).Chain (schema, seen) path (v, seen') →
      path.length < levels c.document schema.depth ∧
      path.reduceOption.Nodup ∧ (∀ r ∈ path.reduceOption, r ∉ seen) ∧
      ((∀ visit ∈ path, visit = none) → v.depth + path.length ≤ schema.depth)) ∧
    ∀ shape e path e', (c.building shape).Chain e path e' →
      path.length ≤ c.ids.length ∧
      (e.id :: path.reduceOption).Nodup ∧ ∀ id ∈ e.id :: path.reduceOption, id ∉ e.seen := by
  refine ⟨fun schema seen n rest hn => Schema.reading_iterate hn seen rest,
    fun name near n m rest rest' hn hm => describeWith_levels hn hm rest rest' name near,
    fun schema seen path v seen' h => ?_, fun shape e path e' h => ?_⟩
  · have hlength := h.length_le (Doc.nesting c.document) fun _ _ _ _ hcall => hcall.nesting_lt
    have hlevels := Schema.nesting_lt_levels c.document schema seen
    obtain ⟨hnodup, hnew⟩ := h.nodup (Schema.remembers_reading c.document)
    refine ⟨by omega, hnodup, hnew, fun hnone => ?_⟩
    refine h.length_le (fun p => p.1.depth) fun p visit hvisit q hcall => ?_
    obtain rfl := hnone visit hvisit
    exact hcall.isPart.1
  · -- the component entered first counts as visited before the chain begins
    have hlength := h.length_le (fun e => c.unentered e.seen) fun _ _ _ _ hcall =>
      hcall.unentered_lt
    have hunentered : c.unentered e.seen ≤ c.ids.length := List.length_filter_le _ _
    obtain ⟨hnodup, hnew⟩ := h.nodup (c.remembers_building shape)
    refine ⟨by omega, List.nodup_cons.2 ⟨fun hmem => hnew e.id hmem List.mem_cons_self, hnodup⟩, ?_⟩
    refine List.forall_mem_cons.2 ⟨e.fresh, fun id hid hseen => ?_⟩
    exact hnew id hid (List.mem_cons_of_mem _ hseen)

/-- The reference to a property that is a reference to itself. -/
def circularReference : Doc :=
  .map [(.text "$ref", .text "#/components/schemas/node/properties/next")]

/-- Two components that extend each other. -/
def circularSchemas : List (String × Doc) :=
  [("node", .map
    [(.text "allOf", .list [.map [(.text "$ref", .text "#/components/schemas/leaf")]]),
     (.text "properties", .map [(.text "next", circularReference)])]),
   ("leaf", .map
    [(.text "allOf", .list [.map [(.text "$ref", .text "#/components/schemas/node")]])])]

/-- The catalog of a document whose references lead in circles. -/
def circularCatalog : Catalog where
  document := .map [(.text "components", .map
    [(.text "schemas", .map (circularSchemas.map fun e => (.text e.1, e.2)))])]
  schemas := circularSchemas

/-- One of the two components, entered first. -/
def enteredFirst : Entry :=
  ⟨"node", [], List.not_mem_nil⟩

/-- The other one, entered from there. -/
def enteredNext : Entry :=
  ⟨"leaf", ["node"], by decide⟩

theorem reading_ends_circularCatalog :
    circularCatalog.shapeOf circularReference =
      .ok { kind := .object, typeName := some "node/properties/next" } ∧
    circularCatalog.describe "node" none = .ok (some
      { name := "node", namespaceName := "", baseType := some "leaf",
        properties := [("next",
          { kind := .object, typeName := some "node/properties/next" })] }) ∧
    (∃ path, (reading circularCatalog.document).Chain (circularReference, []) path
        (circularReference, ["#/components/schemas/node/properties/next"]) ∧
      path.reduceOption.Nodup ∧ path.reduceOption ≠ []) ∧
    ∃ path, (circularCatalog.building circularCatalog.shapeOf).Chain enteredFirst path
        enteredNext ∧
      ("node" :: path.reduceOption).Nodup := by
  obtain ⟨hread, hdescribe, hfollow, henter⟩ := reading_ends circularCatalog
  have hcall : (reading circularCatalog.document).Chain (circularReference, [])
      [some "#/components/schemas/node/properties/next"]
      (circularReference, ["#/components/schemas/node/properties/next"]) :=
    .cons (.follow rfl (by simp) rfl rfl rfl fun h => Bool.false_ne_true h.2) (.nil _)
  have hbuild : (circularCatalog.building circularCatalog.shapeOf).Chain enteredFirst
      [some "leaf"] enteredNext :=
    .cons ⟨rfl, rfl, _, rfl, _, ⟨_, rfl, _, List.mem_cons_self, rfl⟩, _, rfl, rfl⟩ (.nil _)
  refine ⟨?_, ?_, ⟨_, hcall, (hfollow _ _ _ _ _ hcall).2.1, by simp⟩,
    _, hbuild, (henter _ _ _ _ hbuild).2.1⟩
  · rw [shapeOf, Schema.shapeOf, ← hread circularReference [] 40 (fun _ => .ok {}) (by decide)]
    rfl
  · rw [← hdescribe "node" none 60 3 (fun _ => .ok {}) (fun _ => .ok none) (by decide) (by decide)]
    rfl

end Catalog

end ApiSnippets
