import ApiSnippets.Proofs.Schema.Inheritance
/-!
# Schemas in place and as types

The same schema is read in two ways: as a type, when a component is described,
and in place, when its shape is asked for. The type has the properties of the
composition and its own. In place a composition replaces the properties that
stand next to it, so the two have the same names only where the schema has no
composition or its composition repeats the names (`names_in_place`).
-/

namespace ApiSnippets

namespace Schema

variable {root v : Doc} {es : Fields} {x : String} {own : List (Scalar × Shape)}
  {members : List Doc} {shapes : List Shape} {owns : List (List (Scalar × Shape))}

/-- That a schema is an object described in place: no reference, no
enumeration and no array. -/
structure IsObject (es : Fields) : Prop where
  noRef : Doc.field? Pointer.key es = none
  noEnum : isEnum es = false
  noArray : hasType "array" es = false
  object : hasType "object" es = true ∨ has "properties" es = true

/-! ## Names of merged tables -/

theorem areNamed_put {key : Scalar} {s : Shape} {ps : Entries Scalar Shape} :
    areNamed (ps.put key s) = true ↔ key.recordText?.isSome ∧ areNamed ps = true := by
  rcases Entries.put_cases key s ps with ⟨before, k, w, after, rfl, hk, hput⟩ | ⟨-, hput⟩
  · rw [hput, recordText?_eq_of_beq hk]
    simp only [areNamed, List.all_append, List.all_cons, Bool.and_eq_true]
    tauto
  · rw [hput]
    simp only [areNamed, List.all_append, List.all_cons, List.all_nil, Bool.and_eq_true]
    tauto

/-- Every property of a merged table is named when every part is. -/
theorem areNamed_putAll {ps : Entries Scalar Shape} :
    areNamed (ps.putAll own) = true ↔ areNamed ps = true ∧ areNamed own = true := by
  induction own generalizing ps with
  | nil => simp [Entries.putAll, areNamed]
  | cons p own ih =>
    show areNamed (Entries.putAll (ps.put p.1 p.2) own) = true ↔ _
    have hcons : areNamed (p :: own) = true ↔ p.1.recordText?.isSome ∧ areNamed own = true := by
      simp [areNamed]
    rw [ih, areNamed_put, hcons]
    tauto

theorem areNamed_foldl {ps : Entries Scalar Shape} :
    areNamed (owns.foldl Entries.putAll ps) = true ↔
      areNamed ps = true ∧ ∀ own ∈ owns, areNamed own = true := by
  induction owns generalizing ps with
  | nil => simp
  | cons own owns ih =>
    rw [List.foldl_cons, ih, areNamed_putAll, List.forall_mem_cons, and_assoc]

theorem hasName_foldl {ps : Entries Scalar Shape} :
    HasName (owns.foldl Entries.putAll ps) x ↔ HasName ps x ∨ ∃ own ∈ owns, HasName own x := by
  induction owns generalizing ps with
  | nil => simp
  | cons own owns ih =>
    rw [List.foldl_cons, ih, hasName_putAll, List.exists_mem_cons_iff, or_assoc]

/-- The names of merged shapes are those of the shapes. -/
theorem mem_mergedProperties :
    x ∈ (mergedProperties shapes).map Prod.fst ↔ ∃ s ∈ shapes, x ∈ s.properties.map Prod.fst := by
  have hfoldl : ∀ acc : Entries String Shape,
      x ∈ (shapes.foldl (fun acc s => Entries.putAll acc s.properties) acc).map Prod.fst ↔
        x ∈ acc.map Prod.fst ∨ ∃ s ∈ shapes, x ∈ s.properties.map Prod.fst := by
    induction shapes with
    | nil => simp
    | cons s shapes ih =>
      intro acc
      have hput : x ∈ (Entries.putAll acc s.properties).map Prod.fst ↔
          x ∈ acc.map Prod.fst ∨ x ∈ s.properties.map Prod.fst := Entries.mem_keys_putAll
      rw [List.foldl_cons, ih, hput, List.exists_mem_cons_iff, or_assoc]
  rw [mergedProperties, hfoldl]
  simp

theorem mem_mergedProperties_of_tables (h : shapes.map (·.properties) = owns.map named) :
    x ∈ (mergedProperties shapes).map Prod.fst ↔ ∃ own ∈ owns, HasName own x := by
  have hshapes : (∃ s ∈ shapes, x ∈ s.properties.map Prod.fst) ↔
      ∃ ps ∈ shapes.map (·.properties), x ∈ ps.map Prod.fst := by simp
  have howns : (∃ ps ∈ owns.map named, x ∈ ps.map Prod.fst) ↔
      ∃ own ∈ owns, x ∈ (named own).map Prod.fst := by simp
  rw [mem_mergedProperties, hshapes, h, howns]
  simp only [mem_keys_named]

/-! ## Shapes in place -/

theorem shapeFrom_opened (root v : Doc) (seen : List String) :
    shapeFrom root v seen = shapeFrom root v.opened seen := by
  cases v with
  | loop id v => rw [shapeFrom, Doc.opened]
  | _ => rfl

/-- A schema that is no reference is its composition, or itself. -/
theorem shapeFrom_of_members {seen : List String} (href : Doc.field? Pointer.key es = none)
    (hmembers : compositionMembers es = .ok members) (hne : members ≠ []) :
    shapeFrom root (.map es) seen =
      Outcome.mapAll (fun m => shapeFrom root m seen)
        (members.filter fun m => !isNullPlaceholder m) >>= fun shapes =>
          .ok (fold es members shapes) := by
  rw [shapeFrom]
  split
  · next hr => simp [href] at hr
  · next hr => simp [href] at hr
  split
  · next hm => simp [hmembers] at hm
  · next first more hm =>
    obtain rfl := Except.ok.inj (hmembers.symm.trans hm)
    rw [Outcome.mapMem_eq]
    rfl
  · next hm => exact absurd (Except.ok.inj (hmembers.symm.trans hm)) hne

/-- The shape of an object with these properties. -/
def objectShape (es : Fields) (own : List (Scalar × Shape)) : Shape where
  kind := .object
  title := titleOf es
  properties := named own
  nullable := isSet "nullable" es

/-- An object without a composition has the shape of its own properties. -/
theorem shapeOf_object {c : Catalog} (hopened : v.opened = .map es) (h : IsObject es)
    (hplain : compositionMembers es = .ok []) (hown : c.ownProperties es = .ok own)
    (hnamed : areNamed own = true) : shapeOf c.document v = .ok (objectShape es own) := by
  rw [shapeOf, shapeFrom_opened, hopened, shapeFrom]
  split
  · next hr => simp [h.noRef] at hr
  · next hr => simp [h.noRef] at hr
  split
  · next hm => simp [hplain] at hm
  · next hm => simp [hplain] at hm
  simp only [h.noEnum, h.noArray, Bool.false_eq_true, if_false]
  rw [if_pos (by simpa using h.object)]
  -- what is left to compare is how the two look at `properties`
  obtain ⟨ps, hps, hall⟩ := Outcome.bind_eq_ok.1 hown
  have hread : namedProperties own = .ok (named own) := by rw [namedProperties, if_pos hnamed]
  unfold Catalog.fieldEntries at hps
  split
  · next w hw =>
    simp only [hw] at hps
    split
    · next qs hqs =>
      simp only [hqs] at hps
      obtain rfl := Except.ok.inj hps
      rw [Outcome.mapMem_eq]
      exact Outcome.bind_eq_ok.2 ⟨own, hall, Outcome.bind_eq_ok.2 ⟨named own, hread, rfl⟩⟩
    · next hno =>
      split at hps
      · next qs hqs => exact absurd hqs (hno qs)
      split at hps
      · cases hps
      · next hfalse =>
        obtain rfl := Except.ok.inj hps
        obtain rfl := Except.ok.inj hall
        rw [if_neg hfalse]
        rfl
  · next hw =>
    simp only [hw] at hps
    obtain rfl := Except.ok.inj hps
    obtain rfl := Except.ok.inj hall
    rfl

/-- The shape of a composition of objects. -/
theorem shapeOf_composition (hopened : v.opened = .map es)
    (href : Doc.field? Pointer.key es = none) (hmembers : compositionMembers es = .ok members)
    (hne : members ≠ []) (hplain : ∀ m ∈ members, isNullPlaceholder m = false)
    (hshapes : Outcome.mapAll (shapeOf root) members = .ok shapes) :
    shapeOf root v = .ok (fold es members shapes) := by
  have hkept : (members.filter fun m => !isNullPlaceholder m) = members :=
    List.filter_eq_self.2 fun m hm => by simp [hplain m hm]
  rw [shapeOf, shapeFrom_opened, hopened, shapeFrom_of_members href hmembers hne, hkept]
  exact Outcome.bind_eq_ok.2 ⟨shapes, hshapes, rfl⟩

/-- A composition of objects without a name is an object with the properties of
all of them. -/
theorem fold_objects (es : Fields) (members : List Doc) (hne : shapes ≠ [])
    (hobjects : ∀ s ∈ shapes, s.kind = .object ∧ s.typeName = none) :
    (fold es members shapes).kind = .object ∧
      (fold es members shapes).properties = mergedProperties shapes := by
  have hunnamed : shapes.find? isNamedObject = none := by
    refine List.find?_eq_none.2 fun s hs => ?_
    simp [isNamedObject, (hobjects s hs).2]
  have hall : (!shapes.isEmpty && shapes.all fun s => s.kind == .object) = true := by
    simpa [hne] using fun s hs => (hobjects s hs).1
  rw [fold, hunnamed]
  simp only [hall, if_true, and_self]

end Schema

namespace Catalog

open Schema (Fields HasName IsObject areNamed named)

variable {c : Catalog} {id x : String} {seen : List String} {v : Doc} {es : Fields}
  {ms : List Doc} {acc acc' : Inherited} {own : List (Scalar × Shape)} {t : TypeDescriptor}
  {owns : List (List (Scalar × Shape))}

/-! ## Compositions of objects -/

/-- That a component is an object whose composition, if it has one, has objects
with properties for its members, all of them described in place. -/
structure Merges (c : Catalog) (id : String) (v : Doc) (es : Fields) (ms : List Doc) : Prop where
  component : c.schemas.lookup id = some v
  opened : v.opened = .map es
  noRef : Doc.field? Pointer.key es = none
  noAnyOf : Doc.field? "anyOf" es = none
  noOneOf : Doc.field? "oneOf" es = none
  allOf : Doc.elementsUnder es ["allOf"] = .ok ms
  object : Schema.isEnum es = false
  plain : ms = [] → IsObject es
  members : ∀ m ∈ ms, ∃ fs, m.opened = .map fs ∧ IsObject fs ∧
    Schema.has "properties" fs = true ∧ Schema.compositionMembers fs = .ok []

/-- The members of a composition contribute their own properties, one table
after the other. -/
theorem exists_owns_of_inherit (hinline : ∀ m ∈ ms, ∃ fs, m.opened = .map fs ∧
      Doc.field? Pointer.key fs = none)
    (h : c.inherit seen ms acc = .ok acc') :
    ∃ owns, List.Forall₂ (fun m own => ∃ fs, m.opened = .map fs ∧
        c.ownProperties fs = .ok own) ms owns ∧
      acc'.properties = owns.foldl Entries.putAll acc.properties := by
  induction ms generalizing acc with
  | nil =>
    rw [inherit_nil h]
    exact ⟨[], .nil, rfl⟩
  | cons m ms ih =>
    obtain ⟨next, hnext, hrest⟩ := inherit_cons h
    obtain ⟨owns, howns, hprops⟩ := ih (fun m' hm' => hinline m' (List.mem_cons_of_mem _ hm')) hrest
    obtain ⟨fs, hfs, href⟩ := hinline m List.mem_cons_self
    have hsame : ∀ {fs'}, m.opened = .map fs' → fs' = fs := by
      intro fs' hfs'
      exact Doc.map.inj (hfs'.symm.trans hfs)
    cases hnext with
    | noMapping hno => exact absurd hfs (hno fs)
    | elsewhere hfs' href' _ => simp [hsame hfs', href] at href'
    | entered hfs' href' _ _ => simp [hsame hfs', href] at href'
    | base _ hfs' href' _ _ => simp [hsame hfs', href] at href'
    | inline hfs' _ hadd =>
      obtain ⟨own, hown, rfl⟩ := addOwn_eq_ok hadd
      exact ⟨own :: owns, .cons ⟨_, hfs', hown⟩ howns, hprops⟩

/-- The tables that a type is merged from, every property of which has a name. -/
theorem exists_tables_of_buildType {hfresh : id ∉ seen}
    (h : c.buildType id seen hfresh = .ok (some t)) (hm : c.Merges id v es ms) :
    ∃ acc own, c.inherit (id :: seen) ms { title := Schema.titleOf es } = .ok acc ∧
      c.ownProperties es = .ok own ∧ areNamed (acc.properties.putAll own) = true ∧
      t.properties = named (acc.properties.putAll own) := by
  rw [buildType] at h
  split at h
  · cases h
  split at h
  · cases h
  · next w hw =>
    obtain rfl := Option.some.inj (hm.component.symm.trans hw)
    rw [hm.opened] at h
    simp only [hm.object, Bool.false_eq_true, if_false] at h
    obtain ⟨ms', hms, h⟩ := Outcome.bind_eq_ok.1 h
    obtain rfl := Except.ok.inj (hm.allOf.symm.trans hms)
    obtain ⟨acc, hacc, h⟩ := Outcome.bind_eq_ok.1 h
    obtain ⟨merged, hmerged, h⟩ := Outcome.bind_eq_ok.1 h
    obtain ⟨properties, hproperties, h⟩ := Outcome.bind_eq_ok.1 h
    obtain ⟨own, hown, rfl⟩ := addOwn_eq_ok hmerged
    obtain rfl := Option.some.inj (Outcome.pure_eq_ok.1 h)
    refine ⟨acc, own, hacc, hown, ?_⟩
    unfold Schema.namedProperties at hproperties
    split at hproperties
    · next hnamed => exact ⟨hnamed, (Except.ok.inj hproperties).symm⟩
    · cases hproperties

/-- The tables of the members are those of the objects in the composition. -/
theorem exists_own_iff (hm : c.Merges id v es ms)
    (howns : List.Forall₂ (fun m own => ∃ fs, m.opened = .map fs ∧
      c.ownProperties fs = .ok own) ms owns) :
    (∃ own ∈ owns, HasName own x) ↔ ∃ fs, IsInlineMember es fs ∧ DeclaresProperty fs x := by
  constructor
  · rintro ⟨own, hown, hx⟩
    obtain ⟨m, hmem, fs, hfs, hread⟩ := Outcome.exists_of_forall₂ howns hown
    obtain ⟨fs', hfs', hobject, -⟩ := hm.members m hmem
    obtain rfl := Doc.map.inj (hfs.symm.trans hfs')
    exact ⟨fs, ⟨⟨ms, hm.allOf, m, hmem, hfs⟩, hobject.noRef⟩, (hasName_ownProperties hread).1 hx⟩
  · rintro ⟨fs, ⟨⟨ms', hms', m, hmem, hfs⟩, -⟩, hx⟩
    obtain rfl := Except.ok.inj (hm.allOf.symm.trans hms')
    obtain ⟨i, hi⟩ := List.getElem?_of_mem hmem
    obtain ⟨own, hown, fs', hfs', hread⟩ := Outcome.exists_getElem?_of_forall₂ howns hi
    obtain rfl := Doc.map.inj (hfs.symm.trans hfs')
    exact ⟨own, List.mem_of_getElem? hown, (hasName_ownProperties hread).2 hx⟩

/-- The shapes of the members, each with the names of its table. -/
theorem exists_shapes (hm : c.Merges id v es ms)
    (howns : List.Forall₂ (fun m own => ∃ fs, m.opened = .map fs ∧
      c.ownProperties fs = .ok own) ms owns) (hnamed : ∀ own ∈ owns, areNamed own = true) :
    ∃ shapes, Outcome.mapAll (Schema.shapeOf c.document) ms = .ok shapes ∧
      (∀ s ∈ shapes, s.kind = .object ∧ s.typeName = none) ∧
      shapes.map (·.properties) = owns.map named := by
  have hmembers := hm.members
  -- the induction takes members away, so it cannot speak of the component
  clear hm
  induction howns with
  | nil => exact ⟨[], rfl, by simp, rfl⟩
  | @cons m own ms owns hread _ ih =>
    obtain ⟨shapes, hshapes, hobjects, hproperties⟩ :=
      ih (fun own' hown' => hnamed own' (List.mem_cons_of_mem _ hown'))
        fun m' hm' => hmembers m' (List.mem_cons_of_mem _ hm')
    obtain ⟨fs, hfs, hobject, -, hplain⟩ := hmembers m List.mem_cons_self
    obtain ⟨fs', hfs', hown⟩ := hread
    obtain rfl := Doc.map.inj (hfs.symm.trans hfs')
    have hshape := Schema.shapeOf_object hfs hobject hplain hown (hnamed own List.mem_cons_self)
    refine ⟨Schema.objectShape fs own :: shapes, ?_, ?_, ?_⟩
    · exact Outcome.bind_eq_ok.2 ⟨_, hshape, Outcome.bind_eq_ok.2 ⟨shapes, hshapes, rfl⟩⟩
    · rw [List.forall_mem_cons]
      exact ⟨⟨rfl, rfl⟩, hobjects⟩
    · rw [List.map_cons, List.map_cons, hproperties, Schema.objectShape]

theorem Merges.noRef_of_mem (hm : c.Merges id v es ms) :
    ∀ m ∈ ms, ∃ fs, m.opened = .map fs ∧ Doc.field? Pointer.key fs = none := by
  intro m hmem
  obtain ⟨fs, hfs, hobject, -⟩ := hm.members m hmem
  exact ⟨fs, hfs, hobject.noRef⟩

theorem Merges.compositionMembers_eq (hm : c.Merges id v es ms) :
    Schema.compositionMembers es = .ok ms := by
  show Doc.elementsUnder es ["anyOf", "oneOf", "allOf"] = _
  rw [Doc.elementsUnder, hm.noAnyOf, Doc.elementsUnder, hm.noOneOf, hm.allOf]
  rfl

/-- An object with properties does not only allow null. -/
theorem Merges.isNullPlaceholder_eq (hm : c.Merges id v es ms) {m : Doc} (hmem : m ∈ ms) :
    Schema.isNullPlaceholder m = false := by
  obtain ⟨fs, hfs, -, hproperties, -⟩ := hm.members m hmem
  obtain ⟨w, hw⟩ := Option.isSome_iff_exists.1 hproperties
  rw [Schema.isNullPlaceholder, hfs]
  refine Bool.and_eq_false_iff.2 (.inl (Bool.and_eq_false_iff.2 (.inr ?_)))
  exact List.all_eq_false.2 ⟨(.text "properties", w), Doc.field?_mem hw, by simp⟩

/-- In place the composition decides, where there is one. -/
theorem exists_shape (hm : c.Merges id v es ms) (hown : c.ownProperties es = .ok own)
    (hnamed : areNamed own = true)
    (howns : List.Forall₂ (fun m own => ∃ fs, m.opened = .map fs ∧
      c.ownProperties fs = .ok own) ms owns) (hallNamed : ∀ own ∈ owns, areNamed own = true) :
    ∃ s, c.shapeOf v = .ok s ∧ s.kind = .object ∧
      ∀ x, x ∈ s.properties.map Prod.fst ↔
        if ms = [] then DeclaresProperty es x
        else ∃ fs, IsInlineMember es fs ∧ DeclaresProperty fs x := by
  by_cases hms : ms = []
  · have hplain := hm.compositionMembers_eq
    rw [hms] at hplain
    refine ⟨_, Schema.shapeOf_object hm.opened (hm.plain hms) hplain hown hnamed, rfl, ?_⟩
    intro x
    rw [if_pos hms, ← hasName_ownProperties hown]
    exact Schema.mem_keys_named
  · obtain ⟨shapes, hshapes, hobjects, htables⟩ := exists_shapes hm howns hallNamed
    have hne : shapes ≠ [] := by
      rintro rfl
      exact hms (List.forall₂_nil_right_iff.1 (Outcome.forall₂_of_mapAll hshapes))
    obtain ⟨hkind, hfold⟩ := Schema.fold_objects es ms hne hobjects
    refine ⟨_, Schema.shapeOf_composition hm.opened hm.noRef hm.compositionMembers_eq hms
      (fun m hmem => hm.isNullPlaceholder_eq hmem) hshapes, hkind, ?_⟩
    intro x
    rw [if_neg hms, hfold, Schema.mem_mergedProperties_of_tables htables, exists_own_iff hm howns]

/-- **The names of a schema in place and as a type.** A type that is merged
from objects has the names of its composition and its own. In place the same
schema is an object with the names of its composition alone, or its own where
there is no composition: the names are the same exactly when there is none or
when it repeats those next to it. -/
theorem names_in_place {name : String} {near : Option String}
    (h : c.describe name near = .ok (some t)) (hm : c.Merges t.name v es ms) :
    ∃ s, c.shapeOf v = .ok s ∧ s.kind = .object ∧
      (∀ x, x ∈ t.properties.map Prod.fst ↔
        DeclaresProperty es x ∨ ∃ fs, IsInlineMember es fs ∧ DeclaresProperty fs x) ∧
      (∀ x, x ∈ s.properties.map Prod.fst ↔
        if ms = [] then DeclaresProperty es x
        else ∃ fs, IsInlineMember es fs ∧ DeclaresProperty fs x) ∧
      ((∀ x, x ∈ s.properties.map Prod.fst ↔ x ∈ t.properties.map Prod.fst) ↔
        ms = [] ∨ ∀ x, DeclaresProperty es x →
          ∃ fs, IsInlineMember es fs ∧ DeclaresProperty fs x) := by
  obtain ⟨id, hbuild⟩ := exists_buildType_of_describe h
  obtain rfl := name_of_buildType hbuild
  obtain ⟨acc, own, hacc, hown, hnamed, hproperties⟩ := exists_tables_of_buildType hbuild hm
  obtain ⟨owns, howns, hmerged⟩ := exists_owns_of_inherit hm.noRef_of_mem hacc
  rw [Schema.areNamed_putAll, hmerged, Schema.areNamed_foldl] at hnamed
  have htype : ∀ x, x ∈ t.properties.map Prod.fst ↔
      DeclaresProperty es x ∨ ∃ fs, IsInlineMember es fs ∧ DeclaresProperty fs x := by
    intro x
    rw [hproperties, Schema.mem_keys_named, Schema.hasName_putAll, hmerged, Schema.hasName_foldl,
      hasName_ownProperties hown, exists_own_iff hm howns]
    simp [or_comm]
  obtain ⟨s, hs, hkind, hplace⟩ := exists_shape hm hown hnamed.2 howns hnamed.1.2
  refine ⟨s, hs, hkind, htype, hplace, ?_⟩
  -- without a composition both are the own names, and with one the own names
  -- are all that can be missing
  by_cases hms : ms = []
  · have hnone : ∀ fs, ¬ IsInlineMember es fs := by
      rintro fs ⟨⟨ms', hms', m, hmem, -⟩, -⟩
      obtain rfl := Except.ok.inj (hm.allOf.symm.trans hms')
      simp [hms] at hmem
    simp [hplace, htype, hms, hnone]
  · simp only [hplace, htype, hms, if_false, false_or]
    exact forall_congr' fun x => by tauto

/-- A component that adds a property to a composition. -/
def partSchema : Doc :=
  .map
    [(.text "allOf", .list [.map [(.text "properties", .map [(.text "size", typed "integer")])]]),
     (.text "properties", .map [(.text "name", typed "string")])]
where
  /-- A schema with nothing but a type. -/
  typed (kind : String) : Doc :=
    .map [(.text "type", .text kind)]

/-- The schemas with that component. -/
def partCatalog : Catalog where
  document := .null
  schemas := [("ns.part", partSchema)]

/-- What the component is described as. -/
def partType : TypeDescriptor where
  name := "ns.part"
  namespaceName := "ns"
  properties := [("size", { kind := .integer }), ("name", { kind := .string })]

/-- In place the property next to the composition is missing. -/
theorem names_in_place_part :
    partCatalog.describe "ns.part" none = .ok (some partType) ∧
      ∃ s, partCatalog.shapeOf partSchema = .ok s ∧
        "name" ∈ partType.properties.map Prod.fst ∧ "name" ∉ s.properties.map Prod.fst := by
  have hdescribe : partCatalog.describe "ns.part" none = .ok (some partType) := by cbv
  have hmerges : partCatalog.Merges partType.name partSchema
      [(.text "allOf", .list [.map [(.text "properties",
          .map [(.text "size", partSchema.typed "integer")])]]),
        (.text "properties", .map [(.text "name", partSchema.typed "string")])]
      [.map [(.text "properties", .map [(.text "size", partSchema.typed "integer")])]] := by
    refine ⟨rfl, rfl, rfl, rfl, rfl, rfl, rfl, (fun h => by cases h), ?_⟩
    intro m hm
    obtain rfl := List.mem_singleton.1 hm
    exact ⟨_, rfl, ⟨rfl, rfl, rfl, .inr rfl⟩, rfl, rfl⟩
  obtain ⟨s, hs, -, -, hplace, -⟩ := names_in_place hdescribe hmerges
  refine ⟨hdescribe, s, hs, by decide, ?_⟩
  rw [hplace, if_neg (List.cons_ne_nil _ _)]
  rintro ⟨fs, ⟨⟨ms, hms, m, hm, hfs⟩, -⟩, ps, hps, p, hp, hname⟩
  obtain rfl := Except.ok.inj hms
  obtain rfl := List.mem_singleton.1 hm
  obtain rfl := Doc.map.inj hfs
  obtain rfl := Except.ok.inj hps
  obtain rfl := List.mem_singleton.1 hp
  simp [Scalar.recordText?] at hname

end Catalog

end ApiSnippets
