import ApiSnippets.Proofs.Outcome
import ApiSnippets.Proofs.Schema.Tree
import ApiSnippets.Schema.Index
/-!
# The templates of a description

The tree of an index is the prefix tree of the templates of its document:
what the templates say can be read off it, and nothing else
(`isPrefixTree_of_ofDoc`). Each template is added in one step, which is passed
over or inserts the operations of one path item (`Adds`); what a run of such
steps leaves behind follows by induction.
-/

namespace ApiSnippets

namespace Index

open Schema (Fields)

variable {doc : Doc} {tree tree' : PathNode} {paths : Fields} {q : List String} {m : Method}

/-! ## What a document declares -/

/-- An entry of `paths` that is a template with these segments: its value is a
mapping. -/
structure IsTemplate (e : Scalar × Doc) (segs : List String) : Prop where
  isMap : e.2.isMap = true
  segments : templateSegments e.1 = .ok segs

/-- The fields of a path item, behind the references it may consist of. -/
def ItemFields (doc item : Doc) (fields : Fields) : Prop :=
  ∃ v, Pointer.deref doc Pointer.chainLimit item = .ok v ∧ v.opened = .map fields

/-- A method is declared in fields under its name in lower case, with a
mapping as its value. -/
def DeclaresMethod (fields : Fields) (m : Method) : Prop :=
  ∃ v, (Scalar.text m.name, v) ∈ fields ∧ v.isMap = true

/-- The fields of the last declaration of a method. -/
def LastDeclaration (fields : Fields) (m : Method) (own : Fields) : Prop :=
  ∃ before v after, fields = before ++ (.text m.name, v) :: after ∧ v.opened = .map own ∧
    ¬ DeclaresMethod after m

/-- A template declares a method in its path item. -/
def Declares (doc : Doc) (e : Scalar × Doc) (m : Method) : Prop :=
  ∃ fields, ItemFields doc e.2 fields ∧ DeclaresMethod fields m

/-- The operation that is extracted from a template for a method. -/
def Extracts (doc : Doc) (e : Scalar × Doc) (m : Method) (op : Operation) : Prop :=
  ∃ segs fields own, templateSegments e.1 = .ok segs ∧ ItemFields doc e.2 fields ∧
    LastDeclaration fields m own ∧ operationOf doc (segs.getLast?.getD "") m fields own = .ok op

/-! ## The operations of a path item -/

theorem ofName?_eq_some {name : String} (h : Method.ofName? name = some m) : name = m.name := by
  have hname := List.find?_some h
  exact (eq_of_beq hname).symm

theorem ofName?_name : Method.ofName? m.name = some m := by
  cases m <;> rfl

theorem isMap_iff {v : Doc} : v.isMap = true ↔ ∃ fields, v.opened = .map fields := by
  unfold Doc.isMap
  cases v.opened <;> simp

theorem declaresMethod_cons {k : Scalar} {v : Doc} {es : Fields} :
    DeclaresMethod ((k, v) :: es) m ↔
      (k = .text m.name ∧ v.isMap = true) ∨ DeclaresMethod es m := by
  unfold DeclaresMethod
  constructor
  · rintro ⟨w, hw, hmap⟩
    rcases List.mem_cons.1 hw with heq | hw
    · obtain ⟨rfl, rfl⟩ := Prod.mk.inj heq
      exact .inl ⟨rfl, hmap⟩
    · exact .inr ⟨w, hw, hmap⟩
  · rintro (⟨rfl, hmap⟩ | ⟨w, hw, hmap⟩)
    · exact ⟨v, List.mem_cons_self, hmap⟩
    · exact ⟨w, List.mem_cons_of_mem _ hw, hmap⟩

theorem LastDeclaration.cons {e : Scalar × Doc} {es own : Fields}
    (h : LastDeclaration es m own) : LastDeclaration (e :: es) m own := by
  obtain ⟨before, v, after, rfl, hv, hlast⟩ := h
  exact ⟨e :: before, v, after, rfl, hv, hlast⟩

theorem methodName_inj {m m' : Method} (h : m.name = m'.name) : m = m' := by
  have hsome : Method.ofName? m.name = some m' := h ▸ ofName?_name
  exact Option.some.inj (ofName?_name.symm.trans hsome)

/-- The first field of a path item declares a method, or none. -/
theorem operationsOf_cons {segment : String} {item es : Fields} {k : Scalar} {v : Doc}
    {ops : List (Method × Operation)}
    (h : operationsOf doc segment item ((k, v) :: es) = .ok ops) :
    (∃ (m : Method) (own : Fields) (op : Operation) (ops' : List (Method × Operation)),
        k = .text m.name ∧ v.opened = .map own ∧ operationOf doc segment m item own = .ok op ∧
        operationsOf doc segment item es = .ok ops' ∧ ops = (m, op) :: ops') ∨
      (∀ m : Method, k = .text m.name → v.isMap = false) ∧
        operationsOf doc segment item es = .ok ops := by
  cases k with
  | text name =>
    rw [operationsOf] at h
    split at h
    · next m own hname hv =>
      obtain ⟨op, hop, h⟩ := Outcome.bind_eq_ok.1 h
      obtain ⟨ops', hops, h⟩ := Outcome.bind_eq_ok.1 h
      obtain rfl := Outcome.pure_eq_ok.1 h
      exact .inl ⟨m, own, op, ops', by rw [ofName?_eq_some hname], hv, hop, hops, rfl⟩
    · next hnone =>
      refine .inr ⟨?_, h⟩
      intro m hname
      by_contra hmap
      obtain ⟨own, hown⟩ := isMap_iff.1 (Bool.not_eq_false _ ▸ hmap)
      obtain rfl := Scalar.text.inj hname
      exact hnone m own ofName?_name hown
  | _ => exact .inr ⟨by simp, h⟩

/-- **The operations of a path item** are those of the methods it declares. -/
theorem isSome_lookup_operationsOf {segment : String} {item fields : Fields}
    {ops : List (Method × Operation)} (h : operationsOf doc segment item fields = .ok ops) :
    (ops.reverse.lookup m).isSome ↔ DeclaresMethod fields m := by
  induction fields generalizing ops with
  | nil =>
    obtain rfl := Except.ok.inj h
    simp [DeclaresMethod]
  | cons e es ih =>
    obtain ⟨k, v⟩ := e
    rw [declaresMethod_cons]
    rcases operationsOf_cons h with ⟨m', own, op, ops', rfl, hv, -, hops, rfl⟩ | ⟨hno, hops⟩
    · have hmap : v.isMap = true := isMap_iff.2 ⟨own, hv⟩
      rw [List.reverse_cons, List.lookup_append, Option.isSome_or, Bool.or_eq_true, ih hops,
        or_comm]
      refine or_congr_left ?_
      by_cases hm : m = m'
      · simp [hm, hmap]
      · -- one name in lower case stands for one method only
        have hname : m'.name ≠ m.name := fun hname => hm (methodName_inj hname).symm
        simp [hm, hname]
    · rw [ih hops, or_iff_right]
      rintro ⟨hk, hmap⟩
      rw [hno m hk] at hmap
      simp at hmap

/-- Of several declarations of a method the last one counts. -/
theorem lastDeclaration_of_lookup {segment : String} {item fields : Fields}
    {ops : List (Method × Operation)} {op : Operation}
    (h : operationsOf doc segment item fields = .ok ops) (hop : ops.reverse.lookup m = some op) :
    ∃ own, LastDeclaration fields m own ∧ operationOf doc segment m item own = .ok op := by
  induction fields generalizing ops with
  | nil =>
    obtain rfl := Except.ok.inj h
    simp at hop
  | cons e es ih =>
    obtain ⟨k, v⟩ := e
    rcases operationsOf_cons h with ⟨m', own, op', ops', rfl, hv, hop', hops, rfl⟩ | ⟨-, hops⟩
    · -- what the fields after this one declare is looked up first
      rw [List.reverse_cons, List.lookup_append, Option.or_eq_some_iff] at hop
      rcases hop with hop | ⟨hnone, hop⟩
      · obtain ⟨own', hlast, hown'⟩ := ih hops hop
        exact ⟨own', hlast.cons, hown'⟩
      · rw [List.lookup_cons] at hop
        split at hop
        · next hm =>
          obtain rfl := eq_of_beq hm
          obtain rfl := Option.some.inj hop
          have hlast : ¬ DeclaresMethod es m := by
            rw [← isSome_lookup_operationsOf hops, hnone]
            simp
          exact ⟨own, ⟨[], v, es, rfl, hv, hlast⟩, hop'⟩
        · simp at hop
    · obtain ⟨own', hlast, hown'⟩ := ih hops hop
      exact ⟨own', hlast.cons, hown'⟩

/-! ## One template -/

/-- What an entry of `paths` does to the tree: nothing when its value is no
mapping, else its operations are put at the end of its segments. -/
inductive Adds (doc : Doc) (tree : PathNode) (e : Scalar × Doc) : PathNode → Prop
  | passed : e.2.isMap = false → Adds doc tree e tree
  | inserted {segs : List String} {fields : Fields} {ops : List (Method × Operation)} :
      IsTemplate e segs → ItemFields doc e.2 fields →
      operationsOf doc (segs.getLast?.getD "") fields fields = .ok ops →
      Adds doc tree e (tree.insert segs ops)

theorem adds_of_addTemplate {e : Scalar × Doc} (h : addTemplate doc tree e.1 e.2 = .ok tree') :
    Adds doc tree e tree' := by
  unfold addTemplate at h
  split at h
  · next hmap =>
    obtain ⟨item, hitem, h⟩ := Outcome.bind_eq_ok.1 h
    obtain ⟨segs, hsegs, h⟩ := Outcome.bind_eq_ok.1 h
    split at h
    · next fields hfields =>
      obtain ⟨ops, hops, h⟩ := Outcome.bind_eq_ok.1 h
      obtain rfl := Outcome.pure_eq_ok.1 h
      exact .inserted ⟨hmap, hsegs⟩ ⟨item, hitem, hfields⟩ hops
    · simp at h
  · next hmap =>
    obtain rfl := Except.ok.inj h
    exact .passed (Bool.not_eq_true _ ▸ hmap)

theorem IsTemplate.unique {e : Scalar × Doc} {segs segs' : List String} (h : IsTemplate e segs)
    (h' : IsTemplate e segs') : segs = segs' :=
  Except.ok.inj (h.segments.symm.trans h'.segments)

theorem ItemFields.unique {item : Doc} {fields fields' : Fields} (h : ItemFields doc item fields)
    (h' : ItemFields doc item fields') : fields = fields' := by
  obtain ⟨v, hv, hfields⟩ := h
  obtain ⟨v', hv', hfields'⟩ := h'
  obtain rfl := Except.ok.inj (hv.symm.trans hv')
  exact Doc.map.inj (hfields.symm.trans hfields')

theorem Adds.wellPlaced {e : Scalar × Doc} (h : Adds doc tree e tree')
    (hplaced : tree.WellPlaced) : tree'.WellPlaced := by
  cases h with
  | passed _ => exact hplaced
  | inserted _ _ _ => exact PathNode.wellPlaced_insert hplaced

theorem Adds.path {e : Scalar × Doc} (h : Adds doc tree e tree') : tree'.path = tree.path := by
  cases h with
  | passed _ => rfl
  | inserted _ _ _ => exact PathNode.insert_path

/-- One template makes its segments and their prefixes found. -/
theorem Adds.isSome_find? {e : Scalar × Doc} (h : Adds doc tree e tree') :
    (tree'.find? q).isSome ↔
      (tree.find? q).isSome ∨ ∃ segs, IsTemplate e segs ∧ q <+: segs := by
  cases h with
  | passed hno =>
    rw [or_iff_left]
    rintro ⟨segs, ⟨hmap, -⟩, -⟩
    simp [hno] at hmap
  | @inserted segs _ _ htemplate _ _ =>
    rw [PathNode.isSome_find?_insert]
    refine or_congr_right ⟨?_, ?_⟩
    · intro hq
      exact ⟨segs, htemplate, hq⟩
    · rintro ⟨segs', htemplate', hq⟩
      exact htemplate.unique htemplate' ▸ hq

/-- The operation for a method at the end of some segments. -/
def operationAt? (tree : PathNode) (q : List String) (m : Method) : Option Operation :=
  Entries.get? (tree.operationsAt q) m

/-- The operation that one template leaves behind: an extracted one where it
declares the method, else the one from before. -/
theorem Adds.operationAt? {e : Scalar × Doc} (h : Adds doc tree e tree') (m : Method) :
    (IsTemplate e q ∧ Declares doc e m ∧
        ∃ op, Index.operationAt? tree' q m = some op ∧ Extracts doc e m op) ∨
      (¬ (IsTemplate e q ∧ Declares doc e m) ∧
        Index.operationAt? tree' q m = Index.operationAt? tree q m) := by
  cases h with
  | passed hno =>
    refine .inr ⟨?_, rfl⟩
    rintro ⟨⟨hmap, -⟩, -⟩
    simp [hno] at hmap
  | @inserted segs fields ops htemplate hitem hops =>
    unfold Index.operationAt?
    rw [PathNode.operationsAt_insert]
    by_cases hq : q = segs
    · subst hq
      rw [if_pos rfl, Entries.get?_putAll]
      -- of the operations for one method the last one stays
      cases hop : ops.reverse.lookup m with
      | some op =>
        have hdeclares : DeclaresMethod fields m := by
          rw [← isSome_lookup_operationsOf hops, hop]
          rfl
        obtain ⟨own, hlast, hown⟩ := lastDeclaration_of_lookup hops hop
        exact .inl ⟨htemplate, ⟨fields, hitem, hdeclares⟩, op, rfl,
          q, fields, own, htemplate.segments, hitem, hlast, hown⟩
      | none =>
        refine .inr ⟨?_, rfl⟩
        rintro ⟨-, fields', hitem', hdeclares⟩
        obtain rfl := hitem.unique hitem'
        rw [← isSome_lookup_operationsOf hops, hop] at hdeclares
        simp at hdeclares
    · rw [if_neg hq]
      refine .inr ⟨?_, rfl⟩
      rintro ⟨htemplate', -⟩
      exact hq (htemplate'.unique htemplate)

/-! ## All templates -/

theorem addTemplates_cons {e : Scalar × Doc} (h : addTemplates doc tree (e :: paths) = .ok tree') :
    ∃ next, Adds doc tree e next ∧ addTemplates doc next paths = .ok tree' := by
  obtain ⟨next, hnext, h⟩ := Outcome.bind_eq_ok.1 h
  exact ⟨next, adds_of_addTemplate hnext, h⟩

theorem wellPlaced_addTemplates (h : addTemplates doc tree paths = .ok tree')
    (hplaced : tree.WellPlaced) : tree'.WellPlaced ∧ tree'.path = tree.path := by
  induction paths generalizing tree with
  | nil =>
    obtain rfl := Except.ok.inj h
    exact ⟨hplaced, rfl⟩
  | cons e paths ih =>
    obtain ⟨next, hnext, h⟩ := addTemplates_cons h
    obtain ⟨hplaced', hpath⟩ := ih h (hnext.wellPlaced hplaced)
    exact ⟨hplaced', hpath.trans hnext.path⟩

/-- What is found after all templates were added. -/
theorem isSome_find?_addTemplates (h : addTemplates doc tree paths = .ok tree') :
    (tree'.find? q).isSome ↔
      (tree.find? q).isSome ∨ ∃ e ∈ paths, ∃ segs, IsTemplate e segs ∧ q <+: segs := by
  induction paths generalizing tree with
  | nil =>
    obtain rfl := Except.ok.inj h
    simp
  | cons e paths ih =>
    obtain ⟨next, hnext, h⟩ := addTemplates_cons h
    rw [ih h, hnext.isSome_find?, or_assoc]
    simp

/-- **Of the templates with the same segments the last one that declares a
method gives its operation.** -/
theorem operationAt?_addTemplates (h : addTemplates doc tree paths = .ok tree') (m : Method) :
    (∃ before e after op, paths = before ++ e :: after ∧ IsTemplate e q ∧ Declares doc e m ∧
        operationAt? tree' q m = some op ∧ Extracts doc e m op ∧
        ∀ e' ∈ after, ¬ (IsTemplate e' q ∧ Declares doc e' m)) ∨
      ((∀ e ∈ paths, ¬ (IsTemplate e q ∧ Declares doc e m)) ∧
        operationAt? tree' q m = operationAt? tree q m) := by
  induction paths generalizing tree with
  | nil =>
    obtain rfl := Except.ok.inj h
    exact .inr ⟨by simp, rfl⟩
  | cons e paths ih =>
    obtain ⟨next, hnext, h⟩ := addTemplates_cons h
    rcases ih h with ⟨before, e', after, op, rfl, he', hlast⟩ | ⟨hnone, hsame⟩
    · exact .inl ⟨e :: before, e', after, op, rfl, he', hlast⟩
    · -- no later template declares the method, so this one decides
      rcases hnext.operationAt? m with ⟨htemplate, hdeclares, op, hop, hextracts⟩ | ⟨hno, hkept⟩
      · exact .inl ⟨[], e, paths, op, rfl, htemplate, hdeclares, hsame.trans hop, hextracts, hnone⟩
      · refine .inr ⟨?_, hsame.trans hkept⟩
        intro e' he'
        rcases List.mem_cons.1 he' with rfl | he'
        · exact hno
        · exact hnone e' he'

/-! ## The index -/

variable {validate : Bool} {ix : Index}

theorem ofDoc_eq_ok (h : ofDoc doc validate = .ok ix) :
    ∃ paths, (doc.get? "paths").map Doc.opened = some (.map paths) ∧
      catalogIn doc = .ok ix.catalog ∧ addTemplates doc .root paths = .ok ix.root := by
  -- a document that passes validation is built like one that is not validated
  have hbuilt : ofDoc doc false = .ok ix := by
    cases validate with
    | false => exact h
    | true =>
      obtain ⟨_, -, h⟩ := Outcome.bind_eq_ok.1 h
      exact h
  unfold ofDoc at hbuilt
  simp only [Bool.false_eq_true, if_false] at hbuilt
  split at hbuilt
  · next paths hpaths =>
    obtain ⟨catalog, hcatalog, hbuilt⟩ := Outcome.bind_eq_ok.1 hbuilt
    obtain ⟨tree, htree, hbuilt⟩ := Outcome.bind_eq_ok.1 hbuilt
    obtain rfl := Outcome.pure_eq_ok.1 hbuilt
    exact ⟨paths, hpaths, hcatalog, htree⟩
  · simp at hbuilt

theorem canonicalTexts_of_isTemplate {e : Scalar × Doc} {segs : List String}
    (h : IsTemplate e segs) : Path.CanonicalTexts segs := by
  have hsegs := h.segments
  unfold templateSegments at hsegs
  split at hsegs
  · obtain rfl := Except.ok.inj hsegs
    exact Path.canonicalTexts_segments _
  · obtain rfl := Except.ok.inj hsegs
    exact .nil
  · simp at hsegs

/-- Every node of an index is at the place that its segments say. -/
theorem placedAt_root (h : ofDoc doc validate = .ok ix) : ix.root.PlacedAt [] := by
  obtain ⟨paths, -, -, htree⟩ := ofDoc_eq_ok h
  obtain ⟨hplaced, hpath⟩ :=
    wellPlaced_addTemplates htree (PathNode.wellPlaced_of_children_nil rfl)
  refine ⟨hplaced, hpath, ?_⟩
  intro q hq
  rw [List.nil_append]
  rcases (isSome_find?_addTemplates htree).1 hq with hq | ⟨e, -, segs, htemplate, hprefix⟩
  · rw [(PathNode.isSome_find?_leaf rfl).1 hq]
    exact .nil
  · exact (canonicalTexts_of_isTemplate htemplate).initial hprefix

theorem resolve_eq_some {p : String} {found : IndexMatch} (h : ix.resolve p = some found) :
    ∃ n, ix.root.find? (Path.segments p) = some n ∧ found.operations = n.operations := by
  obtain ⟨n, hn, rfl⟩ := Option.map_eq_some_iff.1 h
  exact ⟨n, hn, rfl⟩

/-- The tree of an index as the prefix tree of the entries of `paths`. -/
structure IsPrefixTree (doc : Doc) (paths : Fields) (ix : Index) : Prop where
  /-- A path is found when its segments begin those of a template. -/
  resolves : ∀ p, (ix.resolve p).isSome ↔ Path.segments p = [] ∨
    ∃ e ∈ paths, ∃ segs, IsTemplate e segs ∧ Path.segments p <+: segs
  /-- A path has a method when a template with the same segments declares it. -/
  declares : ∀ p found m, ix.resolve p = some found →
    ((found.operation? m).isSome ↔
      ∃ e ∈ paths, IsTemplate e (Path.segments p) ∧ Declares doc e m)
  /-- The operation is that of the last such template. -/
  extracts : ∀ p found m op, ix.resolve p = some found → found.operation? m = some op →
    ∃ before e after, paths = before ++ e :: after ∧ IsTemplate e (Path.segments p) ∧
      Extracts doc e m op ∧
      ∀ e' ∈ after, ¬ (IsTemplate e' (Path.segments p) ∧ Declares doc e' m)
  /-- Slashes that separate nothing lead to the same node. -/
  slashes : ∀ p p', Relation.EqvGen Path.AddsSlash p p' → ix.resolve p = ix.resolve p'
  /-- No two nodes have the same path. -/
  once : (ix.root.walk.map (·.path)).Nodup

/-- **The tree of an index is the prefix tree of its document's templates.** -/
theorem isPrefixTree_of_ofDoc (h : ofDoc doc validate = .ok ix) :
    ∃ paths, (doc.get? "paths").map Doc.opened = some (.map paths) ∧
      IsPrefixTree doc paths ix := by
  obtain ⟨paths, hpaths, -, htree⟩ := ofDoc_eq_ok h
  -- the operations of a match are those of the node at its path
  have hfound : ∀ p found m, ix.resolve p = some found →
      found.operation? m = operationAt? ix.root (Path.segments p) m := by
    intro p found m hp
    obtain ⟨n, hn, hops⟩ := resolve_eq_some hp
    unfold operationAt? IndexMatch.operation?
    rw [PathNode.operationsAt_of_find? hn, hops]
  -- the tree that the templates are added to has none
  have hempty : ∀ p m, operationAt? .root (Path.segments p) m = none := by
    intro p m
    unfold operationAt?
    rw [PathNode.operationsAt_leaf rfl rfl]
    rfl
  refine ⟨paths, hpaths, ?_, ?_, ?_, ?_, ?_⟩
  · intro p
    rw [resolve, Option.isSome_map, isSome_find?_addTemplates htree]
    exact or_congr_left (PathNode.isSome_find?_leaf rfl)
  · intro p found m hp
    rw [hfound p found m hp]
    rcases operationAt?_addTemplates htree m (q := Path.segments p) with
      ⟨before, e, after, op, rfl, htemplate, hdeclares, hop, -⟩ | ⟨hnone, hsame⟩
    · rw [hop]
      refine iff_of_true rfl ⟨e, ?_, htemplate, hdeclares⟩
      simp
    · rw [hsame, hempty]
      refine iff_of_false (by simp) ?_
      rintro ⟨e, he, hdeclared⟩
      exact hnone e he hdeclared
  · intro p found m op hp hop
    rw [hfound p found m hp] at hop
    rcases operationAt?_addTemplates htree m (q := Path.segments p) with
      ⟨before, e, after, op', rfl, htemplate, -, hop', hextracts, hlast⟩ | ⟨-, hsame⟩
    · obtain rfl := Option.some.inj (hop.symm.trans hop')
      exact ⟨before, e, after, rfl, htemplate, hextracts, hlast⟩
    · rw [hsame, hempty] at hop
      simp at hop
  · intro p p' hslashes
    unfold resolve
    rw [Path.segments_of_slashesAdded hslashes]
  · exact PathNode.nodup_path_walk _ _ (placedAt_root h)

/-- A document in which two templates differ in slashes only. -/
def slashedDocument : Doc :=
  .map [(.text "paths", .map
    [(.text "/me/messages", .map [(.text "get", .map [])]),
     (.text "//me/", .map [(.text "get", .map []), (.text "patch", .map [])]),
     (.text "/me", .map [(.text "get", .map [(.text "operationId", .text "me")])])])]

theorem isPrefixTree_slashedDocument :
    ∃ ix, ofDoc slashedDocument false = .ok ix ∧
      (∃ found op, ix.resolve "me//" = some found ∧ found.operation? .get = some op ∧
        op.operationId = some "me") ∧
      ∃ paths, (slashedDocument.get? "paths").map Doc.opened = some (.map paths) ∧
        IsPrefixTree slashedDocument paths ix := by
  have hix : ∃ ix, ofDoc slashedDocument false = .ok ix := ⟨_, rfl⟩
  obtain ⟨ix, hix⟩ := hix
  refine ⟨ix, hix, ?_, isPrefixTree_of_ofDoc hix⟩
  obtain rfl := Except.ok.inj hix
  exact ⟨_, _, rfl, rfl, rfl⟩

end Index

end ApiSnippets
