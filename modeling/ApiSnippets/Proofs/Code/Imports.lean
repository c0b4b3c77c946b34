import ApiSnippets.Snippet
import ApiSnippets.Proofs.Outcome
/-!
# What a body names is imported

The imports of a snippet and the code of its body come from two separate walks
over the body graph. That the first misses no type of the second is stated
without a third walk: the code names a type when it would be another one, were
the type itself another one (`Language.Names`). Whatever is written of a type,
its class name first of all, makes the code name it. Every type that is named
in this sense has its import among the lines (`Imports.resolve_imports_named`).
-/

namespace ApiSnippets

/-! ## Other types in a body -/

/-- The type of elements, with its type reference replaced. -/
def ItemType.mapTypes (f : TypeRef → TypeRef) : ItemType → ItemType
  | enum t => enum (f t)
  | object t => object (f t)
  | item => item

namespace BodyNode

variable (f : TypeRef → TypeRef)

mutual

/-- A node with every type reference replaced. -/
def mapTypes : BodyNode → BodyNode
  | object t members derived => object (f t) (mapTypesMembers members) derived
  | array item elements => array (item.map (ItemType.mapTypes f)) (mapTypesAll elements)
  | map members => map (mapTypesMembers members)
  | enum t members flags => enum (f t) members flags
  | n => n

/-- Nodes with every type reference replaced. -/
def mapTypesAll : List BodyNode → List BodyNode
  | [] => []
  | n :: ns => mapTypes n :: mapTypesAll ns

/-- Members with every type reference replaced. -/
def mapTypesMembers : List (String × BodyNode) → List (String × BodyNode)
  | [] => []
  | (name, n) :: ms => (name, mapTypes n) :: mapTypesMembers ms

end

end BodyNode

/-- A body with every type reference replaced. -/
def BodyGraph.mapTypes (f : TypeRef → TypeRef) (g : BodyGraph) : BodyGraph :=
  { g with root := g.root.mapTypes f }

/-- **That the code of a body names a type**: the code would be another one if
this type, and no other, were replaced in the body. -/
def Language.Names (l : Language) (g : BodyGraph) (r : ResolvedRequest) (t : TypeRef) : Prop :=
  ∃ f : TypeRef → TypeRef, (∀ u, u ≠ t → f u = u) ∧ l.bodyCode (g.mapTypes f) r ≠ l.bodyCode g r

/-! ## Types that a body does not have -/

variable {f : TypeRef → TypeRef}

theorem ItemType.mapTypes_eq_self {item : ItemType} (h : ∀ t, item.typeRef? = some t → f t = t) :
    item.mapTypes f = item := by
  cases item with
  | enum t => exact congrArg ItemType.enum (h t rfl)
  | object t => exact congrArg ItemType.object (h t rfl)
  | _ => rfl

namespace BodyNode

open ApiSnippets.Language (namedType?)

theorem mapTypes_eq_stream {n : BodyNode} {bs : Bytes} :
    n.mapTypes f = stream bs ↔ n = stream bs := by
  cases n <;> simp [mapTypes]

mutual

/-- A body in which all types stay stays. -/
theorem mapTypes_eq_self : ∀ n : BodyNode,
    (∀ m ∈ n.walk, ∀ t, namedType? m = some t → f t = t) → n.mapTypes f = n
  | object t members derived, h => by
    rw [walk] at h
    rw [mapTypes, h _ List.mem_cons_self t rfl,
      mapTypesMembers_eq_self members fun m hm => h m (List.mem_cons_of_mem _ hm)]
  | array item elements, h => by
    rw [walk] at h
    -- the type of the elements is one that the array names
    have hitem : item.map (ItemType.mapTypes f) = item := by
      cases item with
      | none => rfl
      | some item =>
        exact congrArg some (ItemType.mapTypes_eq_self fun t ht => h _ List.mem_cons_self t ht)
    rw [mapTypes, hitem,
      mapTypesAll_eq_self elements fun m hm => h m (List.mem_cons_of_mem _ hm)]
  | map members, h => by
    rw [walk] at h
    rw [mapTypes, mapTypesMembers_eq_self members fun m hm => h m (List.mem_cons_of_mem _ hm)]
  | enum t members flags, h => by
    rw [mapTypes, h (enum t members flags) (by simp [walk]) t rfl]
  | string _, _ | number _ _, _ | boolean _, _ | guid _, _ | datetime _ _, _ | binary _, _
  | stream _, _ | null, _ => rfl

theorem mapTypesAll_eq_self : ∀ ns : List BodyNode,
    (∀ m ∈ walkAll ns, ∀ t, namedType? m = some t → f t = t) → mapTypesAll f ns = ns
  | [], _ => rfl
  | n :: ns, h => by
    rw [walkAll] at h
    rw [mapTypesAll, mapTypes_eq_self n fun m hm => h m (List.mem_append_left _ hm),
      mapTypesAll_eq_self ns fun m hm => h m (List.mem_append_right _ hm)]

theorem mapTypesMembers_eq_self : ∀ ms : List (String × BodyNode),
    (∀ m ∈ walkMembers ms, ∀ t, namedType? m = some t → f t = t) → mapTypesMembers f ms = ms
  | [], _ => rfl
  | (name, n) :: ms, h => by
    rw [walkMembers] at h
    rw [mapTypesMembers, mapTypes_eq_self n fun m hm => h m (List.mem_append_left _ hm),
      mapTypesMembers_eq_self ms fun m hm => h m (List.mem_append_right _ hm)]

end

end BodyNode

/-- Where all types of a body are imported, what its code names is. -/
theorem Language.mem_typesOf_of_names {l : Language} {g : BodyGraph} {r : ResolvedRequest}
    {t : TypeRef} (h : l.Names g r t) : t ∈ Language.typesOf g.root := by
  obtain ⟨f, hf, hcode⟩ := h
  by_contra hnot
  apply hcode
  have hsame : g.root.mapTypes f = g.root := by
    refine g.root.mapTypes_eq_self fun m hm u hu => hf u ?_
    rintro rfl
    exact hnot (List.mem_filterMap.2 ⟨m, hm, hu⟩)
  rw [BodyGraph.mapTypes, hsame]

/-- The code of a body that is written as one expression. -/
theorem Language.bodyCode_initializer {l : Language} {s : InitializerStyle}
    (hl : l.body = .initializer s) {g : BodyGraph} {r : ResolvedRequest}
    (hroot : ∀ bs, g.root ≠ .stream bs) :
    l.bodyCode g r =
      (s.declare l.dialect (Locals.allocate l.dialect l.dialect.reservedLocals bodyHint).1
        g.root).map fun lines =>
          (lines.map Line.write, some (l.dialect.reference
            (Locals.allocate l.dialect l.dialect.reservedLocals bodyHint).1)) := by
  rw [bodyCode, hl]
  simp only
  cases s.declare l.dialect (Locals.allocate l.dialect l.dialect.reservedLocals bodyHint).1
    g.root <;> rfl

/-! ## Types without a trace -/

/-- The type that an object names for itself. -/
def BodyNode.derivedType? : BodyNode → Option TypeRef
  | object t _ true => some t
  | _ => none

namespace InitializerStyle

open BodyNode (derivedType?)

/-- A style that writes types only where objects name them for themselves. -/
structure WritesDerived (d : Dialect) (s : InitializerStyle) : Prop where
  objectHead : ∀ t u, s.objectHead t = s.objectHead u
  objectEnd : ∀ t u, s.objectEnd t false = s.objectEnd u false
  listHead : ∀ item other, s.listHead item = s.listHead other
  emptyList : ∀ item other, s.emptyList item = s.emptyList other
  enum : ∀ t u, d.enum t = d.enum u

variable {d : Dialect} {s : InitializerStyle}

mutual

/-- In such a style only the types that objects name for themselves leave a
trace. -/
theorem express_mapTypes (hs : WritesDerived d s) : ∀ n : BodyNode,
    (∀ m ∈ n.walk, ∀ t, derivedType? m = some t → f t = t) →
      s.express d (n.mapTypes f) = s.express d n
  | .object t members derived, h => by
    rw [BodyNode.walk] at h
    have hend : s.objectEnd (f t) derived = s.objectEnd t derived := by
      cases derived with
      | false => exact hs.objectEnd _ _
      | true => rw [h _ List.mem_cons_self t rfl]
    rw [BodyNode.mapTypes, express, express, hend, hs.objectHead (f t) t,
      expressMembers_mapTypes hs members _ fun m hm => h m (List.mem_cons_of_mem _ hm)]
  | .array item [], _ => by
    rw [BodyNode.mapTypes, BodyNode.mapTypesAll, express, express, hs.emptyList _ item]
  | .array item (e :: es), h => by
    rw [BodyNode.walk, BodyNode.walkAll] at h
    rw [BodyNode.mapTypes, BodyNode.mapTypesAll, express, express, hs.listHead _ item,
      express_mapTypes hs e fun m hm => h m (List.mem_cons_of_mem _ (List.mem_append_left _ hm)),
      expressAll_mapTypes hs es fun m hm =>
        h m (List.mem_cons_of_mem _ (List.mem_append_right _ hm))]
  | .map members, h => by
    rw [BodyNode.walk] at h
    rw [BodyNode.mapTypes, express, express,
      expressMembers_mapTypes hs members _ fun m hm => h m (List.mem_cons_of_mem _ hm)]
  | .enum t members flags, _ => by
    simp only [BodyNode.mapTypes, express, Dialect.literal, hs.enum (f t) t]
  | .string _, _ | .number _ _, _ | .boolean _, _ | .guid _, _ | .datetime _ _, _ | .binary _, _
  | .stream _, _ | .null, _ => rfl

theorem expressAll_mapTypes (hs : WritesDerived d s) : ∀ ns : List BodyNode,
    (∀ m ∈ BodyNode.walkAll ns, ∀ t, derivedType? m = some t → f t = t) →
      s.expressAll d (BodyNode.mapTypesAll f ns) = s.expressAll d ns
  | [], _ => rfl
  | n :: ns, h => by
    rw [BodyNode.walkAll] at h
    rw [BodyNode.mapTypesAll, expressAll, expressAll,
      express_mapTypes hs n fun m hm => h m (List.mem_append_left _ hm),
      expressAll_mapTypes hs ns fun m hm => h m (List.mem_append_right _ hm)]

theorem expressMembers_mapTypes (hs : WritesDerived d s) :
    ∀ (ms : List (String × BodyNode)) (start : String → String),
      (∀ m ∈ BodyNode.walkMembers ms, ∀ t, derivedType? m = some t → f t = t) →
        s.expressMembers d start (BodyNode.mapTypesMembers f ms) = s.expressMembers d start ms
  | [], _, _ => rfl
  | (name, n) :: ms, start, h => by
    rw [BodyNode.walkMembers] at h
    rw [BodyNode.mapTypesMembers, expressMembers, expressMembers,
      express_mapTypes hs n fun m hm => h m (List.mem_append_left _ hm),
      expressMembers_mapTypes hs ms start fun m hm => h m (List.mem_append_right _ hm)]

end

end InitializerStyle

namespace TypeScript

theorem writesDerived : style.WritesDerived dialect where
  objectHead _ _ := rfl
  objectEnd t u := by simp only [style, Bool.false_eq_true, if_false]
  listHead _ _ := rfl
  emptyList _ _ := rfl
  enum _ _ := rfl

/-- The type that the declaration of a body tells. -/
def declaredType? : BodyNode → Option TypeRef
  | .object t _ false => some t
  | _ => none

theorem mem_types {n : BodyNode} {t : TypeRef} : t ∈ types n ↔
    declaredType? n = some t ∨ ∃ m ∈ n.walk, m.derivedType? = some t := by
  unfold types
  rw [List.mem_append, List.mem_filterMap]
  refine or_congr ?_ Iff.rfl
  cases n with
  | object u members derived =>
    cases derived with
    | false => exact List.mem_singleton.trans (eq_comm.trans Option.some_inj.symm)
    | true => simp [declaredType?]
  | _ => simp [declaredType?]

theorem declaration_mapTypes {name : String} {n : BodyNode}
    (h : ∀ t, declaredType? n = some t → f t = t) :
    declaration name (n.mapTypes f) = declaration name n := by
  cases n with
  | object t members derived =>
    cases derived with
    | true => rfl
    | false => rw [BodyNode.mapTypes, h t rfl]; rfl
  | _ => rfl

/-- What the code of a body names is the type of its declaration or one that
an object names for itself. -/
theorem mem_types_of_names {g : BodyGraph} {r : ResolvedRequest} {t : TypeRef}
    (h : language.Names g r t) : t ∈ types g.root := by
  obtain ⟨f, hf, hcode⟩ := h
  by_contra hnot
  apply hcode
  rw [mem_types, not_or] at hnot
  -- a renaming that moves `t` alone touches neither kind of type
  have hdeclared : ∀ u, declaredType? g.root = some u → f u = u := by
    intro u hu
    refine hf u ?_
    rintro rfl
    exact hnot.1 hu
  have hderived : ∀ m ∈ g.root.walk, ∀ u, m.derivedType? = some u → f u = u := by
    intro m hm u hu
    refine hf u ?_
    rintro rfl
    exact hnot.2 ⟨m, hm, hu⟩
  have hdeclare : ∀ name, style.declare dialect name (g.root.mapTypes f) =
      style.declare dialect name g.root := by
    intro name
    rw [InitializerStyle.declare, InitializerStyle.declare,
      InitializerStyle.express_mapTypes writesDerived g.root hderived]
    show _ = (style.express dialect g.root >>= fun e =>
      pure (e.lines 0 (declaration name g.root) style.statementEnd))
    rw [← declaration_mapTypes hdeclared]
    rfl
  -- a stream is passed as it is, and everything else is declared
  by_cases hstream : ∃ bs, g.root = .stream bs
  · obtain ⟨bs, hroot⟩ := hstream
    have hsame : g.root.mapTypes f = g.root := by
      rw [hroot]
      rfl
    rw [BodyGraph.mapTypes, hsame]
  · have hroot : ∀ bs, g.root ≠ .stream bs := fun bs h => hstream ⟨bs, h⟩
    have hroot' : ∀ bs, (g.mapTypes f).root ≠ .stream bs := by
      intro bs h
      exact hroot bs (BodyNode.mapTypes_eq_stream.1 h)
    rw [Language.bodyCode_initializer rfl hroot, Language.bodyCode_initializer rfl hroot']
    exact congrArg _ (hdeclare _)

end TypeScript

/-! ## The lines of imports -/

/-- That import lines have an import, in the way of each language. -/
inductive Imports.Has : Language → Import → List String → Prop
  | csharp {i : Import} {lines : List String} :
      "using " ++ i.source ++ ";" ∈ lines → Has CSharp.language i lines
  | python {i : Import} {lines : List String} :
      Python.writeImport i ∈ lines → Has Python.language i lines
  | go {i : Import} {lines : List String} :
      Language.indented (Go.writeImport i) ∈ lines → Has Go.language i lines
  /-- All names from one module are in one statement. -/
  | typescript {i : Import} {lines names : List String} : i.name ∈ names →
      TypeScript.importFrom names i.source ∈ lines → Has TypeScript.language i lines
  | php {i : Import} {lines : List String} :
      "use " ++ i.source ++ ";" ∈ lines → Has Php.language i lines

namespace Imports

variable {s : ImportStyle} {i : Import}

theorem mem_sorted {imports : List Import} : i ∈ sorted s imports ↔ i ∈ imports := by
  rw [sorted, List.mem_mergeSort, List.mem_eraseDups]

/-- No import gets lost when the groups are put in order. -/
theorem mem_ordered {groups : List (List Import)} {before : List Import} :
    i ∈ ordered s before groups ↔ i ∈ before ∨ ∃ imports ∈ groups, i ∈ imports := by
  induction groups generalizing before with
  | nil => simp [ordered]
  | cons imports more ih =>
    rw [ordered, ih, List.mem_append, List.mem_filter, mem_sorted]
    by_cases hbefore : i ∈ before <;> simp [hbefore]

/-- The imports that are laid out: those of the language, of the configuration
and of the body, and those of types that the text constructs. -/
theorem exists_imports_of_resolve {l : Language} (hs : l.imports = some s) {r : ResolvedRequest}
    {g : BodyGraph} {text : Option String} {lines : List String}
    (h : resolve r l (some g) text = .ok lines) :
    ∃ (imports : List Import) (types : List TypeRef), lines = s.layout imports ∧
      ∀ i, i ∈ imports ↔ i ∈ s.root ∨ (r.hasConfiguration = true ∧ i ∈ s.configuration r) ∨
        i ∈ ofBody s r g ∨ ∃ t ∈ types, s.model r.segments t = i := by
  -- a text can only add to the last group
  have hlayout : ∃ types : List TypeRef, s.layout (ordered s [] [s.root,
      if r.hasConfiguration then s.configuration r else [],
      ofBody s r g ++ types.map (s.model r.segments)]) = lines := by
    unfold resolve at h
    rw [hs] at h
    cases text with
    | none =>
      obtain rfl := Outcome.pure_eq_ok.1 h
      exact ⟨[], rfl⟩
    | some t =>
      obtain ⟨recovered, hrecovered, h⟩ := Outcome.bind_eq_ok.1 h
      obtain ⟨types, -, htypes⟩ := Outcome.bind_eq_ok.1 hrecovered
      obtain rfl := Outcome.pure_eq_ok.1 htypes
      obtain rfl := Outcome.pure_eq_ok.1 h
      exact ⟨types.filterMap id, rfl⟩
  obtain ⟨types, rfl⟩ := hlayout
  refine ⟨_, types, rfl, fun i => ?_⟩
  rw [mem_ordered]
  cases hconfiguration : r.hasConfiguration <;> simp

/-- The imports that are laid out have those of all types of the body. -/
theorem exists_layout_of_resolve {l : Language} (hs : l.imports = some s) {r : ResolvedRequest}
    {g : BodyGraph} {text : Option String} {lines : List String}
    (h : resolve r l (some g) text = .ok lines) :
    ∃ imports, lines = s.layout imports ∧
      ∀ t ∈ s.types g.root, s.model r.segments t ∈ imports := by
  obtain ⟨imports, types, hlines, himports⟩ := exists_imports_of_resolve hs h
  refine ⟨imports, hlines, fun t ht => ?_⟩
  exact (himports _).2 (.inr (.inr (.inl (List.mem_append_left _ (List.mem_map_of_mem ht)))))

/-- Without a text nothing has to be looked up. -/
theorem exists_resolve_none (r : ResolvedRequest) (l : Language) (body : Option BodyGraph) :
    ∃ lines, resolve r l body none = .ok lines := by
  unfold resolve
  cases l.imports with
  | none => exact ⟨[], rfl⟩
  | some s => exact ⟨_, rfl⟩

/-- In TypeScript the statement for a module has all names from it. -/
theorem has_typescript {imports : List Import} (h : i ∈ imports) :
    Has TypeScript.language i (TypeScript.layout imports) := by
  have hname : i.name ∈ TypeScript.namesFrom imports i.source := by
    rw [TypeScript.namesFrom, List.mem_mergeSort, List.mem_eraseDups]
    exact List.mem_map.2 ⟨i, List.mem_filter.2 ⟨h, beq_self_eq_true _⟩, rfl⟩
  have hsource : i.source ∈ (imports.map (·.source)).eraseDups :=
    List.mem_eraseDups.2 (List.mem_map_of_mem h)
  exact .typescript hname (List.mem_map_of_mem hsource)

/-- In Go the imports stand between the lines of a declaration. -/
theorem has_go {imports : List Import} (h : i ∈ imports) :
    Has Go.language i (Go.layout imports) := by
  have hne : imports.isEmpty = false := by
    cases imports with
    | nil => cases h
    | cons => rfl
  refine .go ?_
  rw [Go.layout, hne]
  exact List.mem_append_left _ (List.mem_append_right _ (List.mem_map_of_mem h))

/-- **Every type that the code of a body names is imported**, however deep in
the body it occurs and whoever declares it. The imports that follow from the
request and the body alone are always there. -/
theorem resolve_imports_named {l : Language} {s : ImportStyle}
    (hl : l ∈ [CSharp.language, Python.language, Go.language, TypeScript.language, Php.language])
    (hs : l.imports = some s) {g : BodyGraph} {r : ResolvedRequest} {t : TypeRef}
    (h : l.Names g r t) :
    (∃ lines, resolve r l (some g) none = .ok lines) ∧
      ∀ text lines, resolve r l (some g) text = .ok lines →
        Has l (s.model r.segments t) lines := by
  refine ⟨exists_resolve_none r l (some g), fun text lines hlines => ?_⟩
  obtain ⟨imports, rfl, himports⟩ := exists_layout_of_resolve hs hlines
  simp only [List.mem_cons, List.not_mem_nil, or_false] at hl
  rcases hl with rfl | rfl | rfl | rfl | rfl
  · cases hs
    exact .csharp (List.mem_map_of_mem (himports t (Language.mem_typesOf_of_names h)))
  · cases hs
    exact .python (List.mem_map_of_mem (himports t (Language.mem_typesOf_of_names h)))
  · cases hs
    exact has_go (himports t (Language.mem_typesOf_of_names h))
  · cases hs
    exact has_typescript (himports t (TypeScript.mem_types_of_names h))
  · cases hs
    exact .php (List.mem_map_of_mem (himports t (Language.mem_typesOf_of_names h)))

/-- A body with a type that only additional data has, in an array of a map. -/
def partBody (part : TypeRef) : BodyGraph where
  root := .object (TypeRef.ofName "ns.thing")
    [(Body.additionalData, .map [("x", .array none [.object part [] true])])] false

/-- A request for that body. -/
def partRequest : ResolvedRequest where
  method := .patch
  version := "v1.0"
  path := "/things"
  template := "/things"
  segments := [PathSegment.literal "things"]
  operation := { method := .patch }
  query := []
  headers := []
  contentType := none
  body := none
  index := default

/-- What is written for that body, with the class name of the type. -/
def partLines (name : String) : List String :=
  ["const requestBody : Thing = \x7b", "\tadditionalData : \x7b", "\t\t\"x\" : [",
    "\t\t\t\x7b", "\t\t\t\x7d as " ++ name ++ ",", "\t\t],", "\t\x7d,", "\x7d;"]

theorem resolve_imports_named_part :
    TypeScript.language.bodyCode (partBody (TypeRef.ofName "ns.part")) partRequest =
        .ok (partLines "Part", some "requestBody") ∧
      TypeScript.language.Names (partBody (TypeRef.ofName "ns.part")) partRequest
        (TypeRef.ofName "ns.part") ∧
      ∃ lines, resolve partRequest TypeScript.language
          (some (partBody (TypeRef.ofName "ns.part"))) none = .ok lines ∧
        Has TypeScript.language ⟨"Part", "@microsoft/msgraph-sdk/models/ns"⟩ lines := by
  have hcode : TypeScript.language.bodyCode (partBody (TypeRef.ofName "ns.part")) partRequest =
      .ok (partLines "Part", some "requestBody") := rfl
  have hother : TypeScript.language.bodyCode (partBody (TypeRef.ofName "ns.other")) partRequest =
      .ok (partLines "Other", some "requestBody") := rfl
  have hnames : TypeScript.language.Names (partBody (TypeRef.ofName "ns.part")) partRequest
      (TypeRef.ofName "ns.part") := by
    refine ⟨fun t => if t = TypeRef.ofName "ns.part" then TypeRef.ofName "ns.other" else t,
      fun u hu => if_neg hu, ?_⟩
    have hmap : (partBody (TypeRef.ofName "ns.part")).mapTypes
        (fun t => if t = TypeRef.ofName "ns.part" then TypeRef.ofName "ns.other" else t) =
          partBody (TypeRef.ofName "ns.other") := rfl
    rw [hmap, hother, hcode]
    decide
  obtain ⟨⟨lines, hlines⟩, hhas⟩ := resolve_imports_named (by simp) rfl hnames
  exact ⟨hcode, hnames, lines, hlines, hhas none lines hlines⟩

end Imports

end ApiSnippets
