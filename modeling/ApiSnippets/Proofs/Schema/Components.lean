import ApiSnippets.Proofs.Schema.Building
import ApiSnippets.Proofs.Schema.Described
import ApiSnippets.Proofs.Schema.Pointer
import ApiSnippets.Proofs.Schema.Reading
import ApiSnippets.Proofs.Text.Cut
/-!
# References to components

A reference to a schema is read in two ways. To resolve it, it is cut into steps;
for the name of its component, what stands behind the beginning of such
references is read as one name. The two agree on references of one step there,
which lead to the component with that name. A reference that points below a
component has a name as well, although it leads to no component
(`references_name_components`). The names of types in shapes are such names.
-/

namespace ApiSnippets

namespace Outcome

variable {α β : Type} {x : Outcome α} {P : α → Prop} {Q : β → Prop}

/-- That a result, if there is one, has a property. -/
def Gives (x : Outcome α) (P : α → Prop) : Prop :=
  ∀ a, x = .ok a → P a

theorem Gives.ok {a : α} (h : P a) : Gives (.ok a) P := by
  intro b hb
  exact Except.ok.inj hb ▸ h

theorem Gives.error {e : Fault} : Gives (.error e) P := by
  intro a h
  cases h

theorem Gives.bind {f : α → Outcome β} (hx : x.Gives P) (hf : ∀ a, P a → (f a).Gives Q) :
    (x >>= f).Gives Q := by
  intro b h
  obtain ⟨a, ha, hb⟩ := bind_eq_ok.1 h
  exact hf a (hx a ha) b hb

theorem Gives.mapMem {xs : List α} {f : (a : α) → a ∈ xs → Outcome β}
    (h : ∀ a ha, (f a ha).Gives Q) : (Outcome.mapMem xs f).Gives fun ys => ∀ y ∈ ys, Q y := by
  induction xs with
  | nil => exact .ok (List.forall_mem_nil Q)
  | cons x xs ih =>
    refine .bind (h x List.mem_cons_self) fun y hy => ?_
    refine .bind (ih fun a ha => h a (List.mem_cons_of_mem _ ha)) fun ys hys => ?_
    exact .ok (List.forall_mem_cons.2 ⟨hy, hys⟩)

end Outcome

open Outcome

namespace Pointer

/-! ## References that begin like schemas -/

variable {r n : String} {root v : Doc} {cs : List Char}

/-- The schemas of a document, in whatever they stand. -/
def schemasIn? (root : Doc) : Option Doc :=
  (root.get? "components").bind (·.get? "schemas")

/-- What stands in a reference behind the beginning of references to schemas. -/
def behindStart (r : String) : List Char :=
  r.toList.drop schemaStart.toList.length

/-- **A reference that points below a component**: there is more than one step
behind the beginning. -/
def PointsBelow (r : String) : Prop :=
  '/' ∈ behindStart r

instance (r : String) : Decidable (PointsBelow r) :=
  inferInstanceAs (Decidable (_ ∈ _))

theorem schemaId?_eq_some_iff : schemaId? r = some n ↔
    r.toList = schemaStart.toList ++ behindStart r ∧ n = String.ofList (unescape (behindStart r)) := by
  have hstart : Text.hasStart schemaStart r = true ↔
      r.toList = schemaStart.toList ++ behindStart r := by
    rw [Text.hasStart, List.isPrefixOf_iff_prefix, List.prefix_iff_eq_append, eq_comm]
    rfl
  rw [← hstart, schemaId?]
  split
  · next h => simp [h, behindStart, eq_comm]
  · next h => simp [h]

/-- **One step**: to the member of a mapping, or to the item of a list at the
position that the name spells. -/
theorem step_eq_ok_iff : step r root cs = .ok v ↔
    root.get? (String.ofList (unescape cs)) = some v ∨
      ∃ items i, root.opened = .list items ∧ Number.lenientInteger? (unescape cs) = some i ∧
        itemAt? items i = some v := by
  rw [step, Doc.get?]
  split
  · split <;> simp_all
  · next items hitems =>
    rw [String.toList_ofList]
    split
    · next w hw =>
      obtain ⟨i, hi, hitem⟩ := Option.bind_eq_some_iff.1 hw
      simp [hitems, hi, hitem]
    · next hnone => simp_all [Option.bind_eq_none_iff]
  · simp_all

/-- A name that is no position is a step into a mapping only. -/
theorem step_eq_ok_of_no_position (hplain : '~' ∉ cs) (hnumber : Number.lenientInteger? cs = none) :
    step r root cs = .ok v ↔ root.get? (String.ofList cs) = some v := by
  rw [step_eq_ok_iff, unescape_of_not_mem hplain, hnumber]
  simp

/-- A reference that begins like one to a schema is followed from the schemas
on. -/
theorem resolve_of_start (h : r.toList = schemaStart.toList ++ behindStart r) :
    resolve r root = .ok v ↔
      ∃ s, schemasIn? root = some s ∧ follow r s (Text.splitAll '/' (behindStart r)) = .ok v := by
  have hsteps : resolve r root = follow r root
      ("components".toList :: "schemas".toList :: Text.splitAll '/' (behindStart r)) := by
    have hcut : Text.splitAll '/'
        ("components".toList ++ '/' :: ("schemas".toList ++ '/' :: behindStart r)) =
        "components".toList :: "schemas".toList :: Text.splitAll '/' (behindStart r) := by
      rw [Text.splitAll_append, Text.splitAll_append,
        Text.splitAll_of_not_mem (show '/' ∉ "components".toList by decide),
        Text.splitAll_of_not_mem (show '/' ∉ "schemas".toList by decide)]
      rfl
    rw [resolve, h, ← hcut]
    rfl
  have hcomponents (w : Doc) : step r root "components".toList = .ok w ↔
      root.get? "components" = some w :=
    step_eq_ok_of_no_position (by decide) (by decide)
  have hschemas (w s : Doc) : step r w "schemas".toList = .ok s ↔ w.get? "schemas" = some s :=
    step_eq_ok_of_no_position (by decide) (by decide)
  rw [hsteps, schemasIn?]
  simp only [follow, bind_eq_ok, hcomponents, hschemas, Option.bind_eq_some_iff]
  constructor
  · rintro ⟨w, hw, s, hs, hv⟩
    exact ⟨s, ⟨w, hw, hs⟩, hv⟩
  · rintro ⟨s, ⟨w, hw, hs⟩, hv⟩
    exact ⟨w, hw, s, hs, hv⟩

/-- **A component is found by its name**: a reference that does not point below
one leads to the schema that stands under the name, and nowhere else. Where
there is a list in place of the schemas, the name is read as a position. -/
theorem resolve_of_not_below (h : schemaId? r = some n) (hbelow : ¬ PointsBelow r) :
    resolve r root = .ok v ↔ ∃ s, schemasIn? root = some s ∧ (s.get? n = some v ∨
      ∃ items i, s.opened = .list items ∧ Number.lenientInteger? n.toList = some i ∧
        itemAt? items i = some v) := by
  obtain ⟨hstart, rfl⟩ := schemaId?_eq_some_iff.1 h
  have hone (s : Doc) : follow r s (Text.splitAll '/' (behindStart r)) = .ok v ↔
      step r s (behindStart r) = .ok v := by
    rw [Text.splitAll_of_not_mem hbelow, follow, bind_eq_ok]
    simp [follow]
  simp only [resolve_of_start hstart, hone, step_eq_ok_iff, String.toList_ofList]

/-- A reference below a component leads to a part of one, by the first of the
steps behind the beginning and by more steps. -/
theorem exists_component_of_below (h : schemaId? r = some n) (hbelow : PointsBelow r)
    (hv : resolve r root = .ok v) :
    ∃ s first more component, schemasIn? root = some s ∧
      Text.splitAll '/' (behindStart r) = first :: more ∧ more ≠ [] ∧
      step r s first = .ok component ∧ follow r component more = .ok v := by
  obtain ⟨s, hs, hfollow⟩ := (resolve_of_start (schemaId?_eq_some_iff.1 h).1).1 hv
  obtain ⟨first, more, hcut⟩ :=
    List.exists_cons_of_ne_nil (Text.splitAll_ne_nil '/' (behindStart r))
  have hmore : more ≠ [] := by
    rintro rfl
    -- a single step would have no slash
    have hfirst := Text.not_mem_of_mem_splitAll (behindStart r) (hcut ▸ List.mem_singleton_self _)
    exact hfirst (Text.eq_of_splitAll hcut ▸ hbelow)
  rw [hcut, follow, bind_eq_ok] at hfollow
  obtain ⟨component, hstep, hrest⟩ := hfollow
  exact ⟨s, first, more, component, hs, hcut, hmore, hstep, hrest⟩

/-- The name of a reference below a component has a slash. -/
theorem slash_mem_of_below (h : schemaId? r = some n) (hbelow : PointsBelow r) :
    '/' ∈ n.toList := by
  rw [(schemaId?_eq_some_iff.1 h).2, String.toList_ofList, unescape]
  exact Text.mem_replacePair (by decide) (by decide)
    (Text.mem_replacePair (by decide) (by decide) hbelow)

/-- A reference leads to a mapping. -/
def LeadsToMap (root : Doc) (r : String) : Prop :=
  ∃ target, resolve r root = .ok target ∧ target.isMap = true

/-- **A name is that of a reference** which leads to a mapping. -/
def IsReferenced (root : Doc) (n : String) : Prop :=
  ∃ r, schemaId? r = some n ∧ LeadsToMap root r

end Pointer

/-! ## Names in shapes -/

/-- **A name of a type occurs in a shape**: as its own, in the shape of its
items, or in the shape of a property. -/
inductive Shape.Names (n : String) : Shape → Prop
  | own {s : Shape} (h : s.typeName = some n) : Names n s
  | items {s t : Shape} (ht : s.items = some t) (h : Names n t) : Names n s
  | property {s : Shape} {p : String × Shape} (hp : p ∈ s.properties) (h : Names n p.2) :
      Names n s

namespace Shape

variable {n : String} {s t : Shape}

/-- What else a shape says does not matter. -/
theorem Names.of_same (h : t.Names n) (hname : t.typeName = s.typeName) (hitems : t.items = s.items)
    (hproperties : t.properties = s.properties) : s.Names n := by
  cases h with
  | own h => exact .own (hname ▸ h)
  | items ht h => exact .items (hitems ▸ ht) h
  | property hp h => exact .property (hproperties ▸ hp) h

end Shape

namespace Schema

variable {n : String} {root : Doc} {s t : Shape} {shapes : List Shape}

/-- That all names in a shape are names of references. -/
def TakesNames (root : Doc) (s : Shape) : Prop :=
  ∀ n, s.Names n → Pointer.IsReferenced root n

/-- A shape has the names of its parts, and its own. -/
theorem takesNames_of (hname : ∀ n, s.typeName = some n → Pointer.IsReferenced root n)
    (hitems : ∀ t, s.items = some t → TakesNames root t)
    (hproperties : ∀ p ∈ s.properties, TakesNames root p.2) : TakesNames root s := by
  intro n h
  cases h with
  | own h => exact hname n h
  | items ht h => exact hitems _ ht n h
  | property hp h => exact hproperties _ hp n h

/-- A shape without parts has its own name only. -/
theorem takesNames_of_leaf (hitems : s.items = none) (hproperties : s.properties = [])
    (hname : ∀ n, s.typeName = some n → Pointer.IsReferenced root n) : TakesNames root s :=
  takesNames_of hname (by simp [hitems]) (by simp [hproperties])

/-- A shape with nothing in it has no names. -/
theorem takesNames_of_nameless (hname : s.typeName = none) (hitems : s.items = none)
    (hproperties : s.properties = []) : TakesNames root s :=
  takesNames_of_leaf hitems hproperties (by simp [hname])

/-! ## Compositions and properties -/

theorem exists_of_mem_mergedProperties {p : String × Shape} (h : p ∈ mergedProperties shapes) :
    ∃ s ∈ shapes, p ∈ s.properties := by
  have hfoldl : ∀ acc : Entries String Shape,
      p ∈ shapes.foldl (fun acc s => Entries.putAll acc s.properties) acc →
        p ∈ acc ∨ ∃ s ∈ shapes, p ∈ s.properties := by
    clear h
    induction shapes with
    | nil => exact fun acc h => .inl h
    | cons s shapes ih =>
      intro acc h
      rw [List.exists_mem_cons_iff, ← or_assoc]
      exact (ih _ h).imp_left Entries.mem_of_mem_putAll
  exact (hfoldl [] h).resolve_left List.not_mem_nil

/-- The names in a composition are those in its members. -/
theorem exists_of_names_fold {es : Fields} {members : List Doc}
    (h : (fold es members shapes).Names n) : ∃ s ∈ shapes, s.Names n := by
  unfold fold at h
  dsimp only at h
  split at h
  · next s hs => exact ⟨s, List.mem_of_find?_eq_some hs, h.of_same rfl rfl rfl⟩
  split at h
  · cases h with
    | own h => cases h
    | items ht h => cases ht
    | property hp h =>
      obtain ⟨s, hs, hp⟩ := exists_of_mem_mergedProperties hp
      exact ⟨s, hs, .property hp h⟩
  split at h
  · next s hs =>
    obtain ⟨kind, -, hkind⟩ := List.exists_of_findSome?_eq_some hs
    exact ⟨s, List.mem_of_find?_eq_some hkind, h.of_same rfl rfl rfl⟩
  · cases h with
    | own h => cases h
    | items ht h => cases ht
    | property hp h => cases hp

theorem exists_of_mem_named {ps : List (Scalar × Shape)} {p : String × Shape} (h : p ∈ named ps) :
    ∃ q ∈ ps, q.2 = p.2 := by
  rcases Entries.mem_of_mem_putAll h with hnil | hmem
  · cases hnil
  · obtain ⟨q, hq, hname⟩ := List.mem_filterMap.1 hmem
    obtain ⟨name, -, rfl⟩ := Option.map_eq_some_iff.1 hname
    exact ⟨q, hq, rfl⟩

theorem namedProperties_takesNames {ps : List (Scalar × Shape)}
    (h : ∀ q ∈ ps, TakesNames root q.2) :
    (namedProperties ps).Gives fun properties => ∀ p ∈ properties, TakesNames root p.2 := by
  unfold namedProperties
  split
  · refine .ok fun p hp => ?_
    obtain ⟨q, hq, hsame⟩ := exists_of_mem_named hp
    exact hsame ▸ h q hq
  · exact .error

/-! ## The names of references -/

theorem enumShape_takesNames {typeName : Option String} {nullable : Bool} {es : Fields}
    (hname : ∀ n, typeName = some n → Pointer.IsReferenced root n) :
    (enumShape typeName nullable es).Gives (TakesNames root) := by
  intro s h
  obtain ⟨info, -, hs⟩ := bind_eq_ok.1 h
  obtain rfl := pure_eq_ok.1 hs
  exact takesNames_of_leaf rfl rfl hname

/-- **Every name in a shape is that of a reference** that was followed. The
induction goes along the reading, and the references that are being followed
lead to mappings. -/
theorem shapeFrom_takesNames (root schema : Doc) (seen : List String) :
    (∀ r ∈ seen, Pointer.LeadsToMap root r) →
      (shapeFrom root schema seen).Gives (TakesNames root) := by
  fun_induction shapeFrom root schema seen with
  | case1 => exact fun _ => .error
  | case2 seen es r hr hs target ht ts ho typeName henum =>
    exact fun _ => enumShape_takesNames fun n hn => ⟨r, hn, target, ht, Doc.isMap_iff.2 ⟨ts, ho⟩⟩
  | case3 seen es r hr hs target ht ts ho typeName henum hlike =>
    exact fun _ => .ok (takesNames_of_leaf rfl rfl fun n hn =>
      ⟨r, hn, target, ht, Doc.isMap_iff.2 ⟨ts, ho⟩⟩)
  | case4 seen es r hr hs target ht ts ho typeName henum hlike ih =>
    exact fun hseen => ih (List.forall_mem_cons.2 ⟨⟨target, ht, Doc.isMap_iff.2 ⟨ts, ho⟩⟩, hseen⟩)
  | case5 => exact fun _ => .ok (takesNames_of_nameless rfl rfl rfl)
  | case6 seen es r hr hs =>
    have hmem : r ∈ seen := by simpa using hs
    exact fun hseen => .ok (takesNames_of_leaf rfl rfl fun n hn => ⟨r, hn, hseen r hmem⟩)
  | case7 => exact fun _ => .error
  | case8 => exact fun _ => .error
  -- a composition: a name in what is folded is a name in one of its members
  | case9 seen es hr first more hm ih =>
    refine fun hseen => .bind (.mapMem fun m hmem => ih m hmem hseen) fun shapes hshapes => ?_
    refine .ok fun n hn => ?_
    obtain ⟨s, hs, hn⟩ := exists_of_names_fold hn
    exact hshapes s hs n hn
  | case10 => exact fun _ => enumShape_takesNames (by simp)
  | case11 seen es hr hm nullable henum harray v hi ih =>
    refine fun hseen => .bind (ih hseen) fun s hs => .ok ?_
    exact takesNames_of (by simp) (by simpa using hs) (by simp)
  | case12 =>
    have hempty : TakesNames root {} := takesNames_of_nameless rfl rfl rfl
    exact fun _ => .ok (takesNames_of (by simp) (by simpa using hempty) (by simp))
  | case13 seen es hr hm nullable henum harray hobject next v hp ps ho ih =>
    intro hseen
    -- a name in the properties is a name in the shape of one of them
    have hread := Gives.mapMem fun p hp => (ih p hp hseen).bind
      (Q := fun q : Scalar × Shape => TakesNames root q.2) fun s hs => .ok (a := (p.1, s)) hs
    refine hread.bind fun shapes hshapes => ?_
    exact (namedProperties_takesNames hshapes).bind fun properties hproperties =>
      .ok (takesNames_of (by simp) (by simp) hproperties)
  | case14 => exact fun _ => .error
  | case15 => exact fun _ => .ok (takesNames_of_nameless rfl rfl rfl)
  | case16 => exact fun _ => .ok (takesNames_of_nameless rfl rfl rfl)
  | case17 =>
    refine fun _ => .bind (P := fun _ => True) (fun _ _ => trivial) fun kind _ => ?_
    exact .ok (takesNames_of_nameless rfl rfl rfl)
  | case18 seen id v ih => exact ih
  | case19 => exact fun _ => .error
  | case20 => exact fun _ => .ok (takesNames_of_nameless rfl rfl rfl)

end Schema

/-! ## The catalog of a document -/

namespace Index

variable {doc : Doc} {c : Catalog} {ix : Index} {validate : Bool}

theorem catalogIn_of_ofDoc (h : ofDoc doc validate = .ok ix) : catalogIn doc = .ok ix.catalog := by
  have hbuild : ofDoc doc false = .ok ix := by
    cases validate with
    | false => exact h
    | true =>
      obtain ⟨version, -, h⟩ := bind_eq_ok.1 h
      exact h
  simp only [ofDoc, Bool.false_eq_true, if_false] at hbuild
  split at hbuild
  · obtain ⟨catalog, hcatalog, hbuild⟩ := bind_eq_ok.1 hbuild
    obtain ⟨tree, -, hbuild⟩ := bind_eq_ok.1 hbuild
    obtain rfl := pure_eq_ok.1 hbuild
    exact hcatalog
  · cases hbuild

theorem document_of_catalogOf {standIn : Option Doc} {schemas : Schema.Fields}
    (h : catalogOf doc standIn schemas = .ok c) : c.document = doc := by
  unfold catalogOf at h
  split at h
  · rw [← Except.ok.inj h]
  · cases h

theorem document_of_catalogIn (h : catalogIn doc = .ok c) : c.document = doc := by
  have hnone : ∀ {c' : Catalog},
      (.ok { document := doc, schemas := [] } : Outcome Catalog) = .ok c' →
      c'.document = doc := by
    intro c' h
    rw [← Except.ok.inj h]
  unfold catalogIn at h
  split at h
  · exact hnone h
  · split at h
    · exact hnone h
    · unfold schemasField at h
      split at h
      · exact document_of_catalogOf h
      · split at h
        · obtain ⟨names, -, h⟩ := bind_eq_ok.1 h
          exact document_of_catalogOf h
        · exact hnone h
  · cases h

/-- Names that are texts keep their values. -/
theorem lookup_texts (es : Schema.Fields) (name : String) :
    (es.filterMap fun e =>
      match e.1 with
      | .text name => some (name, e.2)
      | _ => none).lookup name = Doc.field? name es := by
  fun_induction Doc.field? name es with
  | case1 => rfl
  | case2 k v es hk =>
    obtain rfl := eq_of_beq hk
    simp
  | case3 k v es hk ih =>
    have hne : (name == k) = false := by
      rw [beq_eq_false_iff_ne]
      rintro rfl
      simp at hk
    simpa [List.lookup_cons, hne] using ih
  | case4 e es hkey ih =>
    obtain ⟨key, v⟩ := e
    cases key with
    | text k => exact absurd rfl (hkey k v)
    | _ => exact ih

/-- Where there is a mapping of schemas, the catalog holds what it holds. -/
theorem lookup_of_catalogIn {s : Doc} {es : Schema.Fields} (h : catalogIn doc = .ok c)
    (hs : Pointer.schemasIn? doc = some s) (hes : s.opened = .map es) :
    c.standIn = none ∧ ∀ name, c.schemas.lookup name = Doc.field? name es := by
  obtain ⟨components, hcomponents, hget⟩ := Option.bind_eq_some_iff.1 hs
  obtain ⟨fields, hfields, hfield⟩ := Pointer.exists_of_get? hget
  have hcatalog : catalogOf doc none es = .ok c := by
    simpa [catalogIn, hcomponents, hfields, hfield, schemasField, hes] using h
  unfold catalogOf at hcatalog
  split at hcatalog
  · rw [← Except.ok.inj hcatalog]
    exact ⟨rfl, lookup_texts es⟩
  · cases hcatalog

/-- Where a list stands in place of the schemas, its items are names. -/
theorem not_isMap_of_mem_schemas {s item : Doc} {items : List Doc} (h : ofDoc doc validate = .ok ix)
    (hs : Pointer.schemasIn? doc = some s) (hitems : s.opened = .list items) (hitem : item ∈ items) :
    item.isMap = false := by
  have hsound : ¬ Flawed doc := fun hflaw => (ofDoc_stopsAt doc validate).ne_ok hflaw ix h
  obtain ⟨components, hcomponents, hget⟩ := Option.bind_eq_some_iff.1 hs
  by_contra hmap
  obtain ⟨es, hes⟩ := Doc.isMap_iff.1 (eq_true_of_ne_false hmap)
  have hbare : isSchemaName (bareName item).1 = false := by
    cases item with
    | scalar a => simp [Doc.opened] at hes
    | _ => rfl
  have htruthy : s.isTruthy = true := by
    have hne : items.isEmpty = false := by simpa using List.ne_nil_of_mem hitem
    cases s with
    | list xs => simpa [Doc.isTruthy, Doc.list.inj hitems] using hne
    | loop id v =>
      obtain rfl : v = .list items := hitems
      simpa [Doc.isTruthy] using hne
    | _ => cases hitems
  refine hsound (.components ⟨components, hcomponents, .inr ⟨s, hget, .inr ⟨?_, htruthy, ?_⟩⟩⟩)
  · simp [Doc.isMap, hitems]
  · intro names hnames
    obtain rfl : items = names := by simpa [Doc.elements, hitems] using hnames
    exact ⟨item, hitem, hbare⟩

end Index

namespace Catalog

variable {c : Catalog} {n : String} {v : Doc}

/-- A schema that is a mapping describes a type, unless its reading fails. -/
theorem buildType_ne_none {seen : List String} {fresh : n ∉ seen} (hpart : c.standIn = none)
    (hv : c.schemas.lookup n = some v) (hmap : v.isMap = true) :
    c.buildType n seen fresh ≠ .ok none := by
  obtain ⟨es, hes⟩ := Doc.isMap_iff.1 hmap
  intro h
  rw [buildType, if_neg (by simp [hpart])] at h
  split at h
  · next hv' => simp [hv] at hv'
  · next w hw =>
    obtain rfl := Option.some.inj (hv.symm.trans hw)
    rw [hes] at h
    simp only at h
    split at h
    · obtain ⟨t, -, h⟩ := bind_eq_ok.1 h
      exact absurd (pure_eq_ok.1 h) (by simp)
    · obtain ⟨members, -, h⟩ := bind_eq_ok.1 h
      obtain ⟨acc, -, h⟩ := bind_eq_ok.1 h
      obtain ⟨acc', -, h⟩ := bind_eq_ok.1 h
      obtain ⟨properties, -, h⟩ := bind_eq_ok.1 h
      exact absurd (pure_eq_ok.1 h) (by simp)

/-- **A name is found**: it is looked up as it is, near whatever namespace, and
where it has no hash sign in front, which a name may carry, its description is
that of the component with this name or fails in what the component leads to. -/
structure Finds (c : Catalog) (n : String) : Prop where
  found : ∀ near, c.find? n near = .ok (some n)
  described : n.toList.head? ≠ some '#' → ∀ near,
    (∃ t, c.describe n near = .ok (some t) ∧ t.name = n) ∨ ∃ e, c.describe n near = .error e

theorem finds_of_component (hpart : c.standIn = none) (hv : c.schemas.lookup n = some v)
    (hmap : v.isMap = true) : c.Finds n := by
  have hfind (near : Option String) : c.find? n near = .ok (some n) := by
    have hcontains : c.contains n = true := by
      simpa [contains, hpart] using mem_ids_of_lookup hv
    rw [find?, if_pos hcontains]
  refine ⟨hfind, fun hhash near => ?_⟩
  have hname : n.toList.dropWhile (· == '#') = n.toList := by
    cases hcs : n.toList with
    | nil => rfl
    | cons a cs =>
      have ha : (a == '#') = false := by simpa [hcs] using hhash
      rw [List.dropWhile_cons_of_neg (by simp [ha])]
  have hdescribe : c.describe n near = c.buildType n [] List.not_mem_nil := by
    rw [describe, hname, String.ofList_toList, hfind near]
    rfl
  rw [hdescribe]
  cases ht : c.buildType n [] List.not_mem_nil with
  | error e => exact .inr ⟨e, rfl⟩
  | ok t =>
    cases t with
    | none => exact absurd ht (buildType_ne_none hpart hv hmap)
    | some t => exact .inl ⟨t, rfl, name_of_buildType ht⟩

end Catalog

namespace Index

open Pointer

/-- A reference to a mapping that does not point below a component has the name
of one, which is found. -/
theorem finds_of_not_below {doc : Doc} {validate : Bool} {ix : Index} {r n : String}
    (h : ofDoc doc validate = .ok ix) (hr : schemaId? r = some n) (hmap : LeadsToMap doc r)
    (hbelow : ¬ PointsBelow r) : ix.catalog.Finds n := by
  obtain ⟨target, htarget, hmap⟩ := hmap
  obtain ⟨s, hs, hget | ⟨items, i, hitems, -, hitem⟩⟩ := (resolve_of_not_below hr hbelow).1 htarget
  · obtain ⟨es, hes, hfield⟩ := exists_of_get? hget
    obtain ⟨hpart, hlookup⟩ := lookup_of_catalogIn (catalogIn_of_ofDoc h) hs hes
    exact Catalog.finds_of_component hpart ((hlookup n).trans hfield) hmap
  · have hnot := not_isMap_of_mem_schemas h hs hitems (mem_of_itemAt? hitem)
    exact absurd hmap (by simp [hnot])

/-- **What the name of a reference says.** A reference with a name that does not
point below a component leads to the schema that stands under this name, and to
nothing else; only where a list stands in place of the schemas is the name a
position. A reference that points below a component leads to a part of one, but
it has a name too, with a slash, as if it led to a component. The names in a
shape are names of references that lead to mappings; one that does not point
below a component is found in the catalog, and described under this name. -/
theorem references_name_components (doc : Doc) :
    (∀ r n v, schemaId? r = some n → ¬ PointsBelow r →
      (Pointer.resolve r doc = .ok v ↔ ∃ s, schemasIn? doc = some s ∧ (s.get? n = some v ∨
        ∃ items i, s.opened = .list items ∧ Number.lenientInteger? n.toList = some i ∧
          itemAt? items i = some v))) ∧
    (∀ r n v, schemaId? r = some n → PointsBelow r → Pointer.resolve r doc = .ok v →
      '/' ∈ n.toList ∧ ∃ s first more component, schemasIn? doc = some s ∧
        Text.splitAll '/' (behindStart r) = first :: more ∧ more ≠ [] ∧
        step r s first = .ok component ∧ follow r component more = .ok v) ∧
    ∀ validate ix schema shape n, ofDoc doc validate = .ok ix →
      ix.catalog.shapeOf schema = .ok shape → shape.Names n →
      ∃ r, schemaId? r = some n ∧ LeadsToMap doc r ∧
        (¬ PointsBelow r → ix.catalog.Finds n) := by
  refine ⟨fun r n v => resolve_of_not_below, fun r n v hr hbelow hv =>
    ⟨slash_mem_of_below hr hbelow, exists_component_of_below hr hbelow hv⟩, ?_⟩
  intro validate ix schema shape n hix hshape hn
  have hdocument := document_of_catalogIn (catalogIn_of_ofDoc hix)
  rw [Catalog.shapeOf, hdocument] at hshape
  obtain ⟨r, hr, hmap⟩ :=
    Schema.shapeFrom_takesNames doc schema [] (List.forall_mem_nil _) shape hshape n hn
  exact ⟨r, hr, hmap, finds_of_not_below hix hr hmap⟩

/-- A schema with a property that is an object. -/
def partedSchema : Doc :=
  .map [(.text "properties", .map [(.text "b", .map [(.text "type", .text "object")])])]

/-- A document with that schema. -/
def partedDocument : Doc :=
  .map [(.text "paths", .map []),
    (.text "components", .map [(.text "schemas", .map [(.text "a", partedSchema)])])]

/-- The index of that document. -/
def partedIndex : Index where
  catalog := { document := partedDocument, schemas := [("a", partedSchema)] }
  root := .root

/-- A schema that is a reference. -/
def referring (r : String) : Doc :=
  .map [(.text "$ref", .text r)]

theorem references_name_components_parted :
    Pointer.resolve "#/components/schemas/a" partedDocument = .ok partedSchema ∧
    partedIndex.catalog.Finds "a" ∧
    '/' ∈ "a/properties/b".toList ∧
    (∃ shape, partedIndex.catalog.shapeOf (referring "#/components/schemas/a/properties/b") =
      .ok shape ∧ shape.typeName = some "a/properties/b") ∧
    partedIndex.describeType "a/properties/b" none = .ok none := by
  obtain ⟨hplain, hbelow, hnames⟩ := references_name_components partedDocument
  have hix : ofDoc partedDocument false = .ok partedIndex := rfl
  have hshape : partedIndex.catalog.shapeOf (referring "#/components/schemas/a") =
      .ok { kind := .object, typeName := some "a" } := by
    rw [Catalog.shapeOf, Schema.shapeOf, Schema.shapeFrom_eq_readLevel]
    rfl
  have htarget : Pointer.resolve "#/components/schemas/a/properties/b" partedDocument =
      .ok (.map [(.text "type", .text "object")]) := rfl
  have hpart : partedIndex.catalog.shapeOf (referring "#/components/schemas/a/properties/b") =
      .ok { kind := .object, typeName := some "a/properties/b" } := by
    rw [Catalog.shapeOf, Schema.shapeOf, Schema.shapeFrom_eq_readLevel]
    rfl
  refine ⟨?_, ?_, ?_, ⟨_, hpart, rfl⟩, by cbv⟩
  · exact (hplain _ "a" _ rfl (by decide)).2 ⟨_, rfl, .inl rfl⟩
  · obtain ⟨r, hr, -, hfinds⟩ := hnames _ _ _ _ "a" hix hshape (.own rfl)
    exact hfinds fun h => absurd (slash_mem_of_below hr h) (by decide)
  · exact (hbelow _ _ _ rfl (by decide) htarget).1

end Index

end ApiSnippets
