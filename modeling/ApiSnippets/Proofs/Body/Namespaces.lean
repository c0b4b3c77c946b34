import ApiSnippets.Proofs.Body.FrameTypes
import ApiSnippets.Proofs.Body.InlineObjects
import ApiSnippets.Proofs.Schema.Nearest
/-!
# Namespaces near a type

A type that an object names by its last component alone is looked up near a
namespace. It is the one of the declared type where a type is declared, and
where nothing is declared the one of the nearest enclosing object of a type of
the schema. An object that is declared in place has no namespace: near it, and
below it until the next object of a type of the schema, the name is looked up
near none (`short_names_near`).
-/

namespace ApiSnippets

namespace Catalog

open Text (sameLetters lastComponent leadingComponents lastComponent_of_undotted)

variable {c : Catalog} {name id : String} {near : Option String} {ids : List String}

/-! ## Looking up again -/

/-- The candidate that is nearest to a namespace is nearest to its own. -/
theorem nearest_again {n : String} (h : nearest n ids = some id) :
    nearest (leadingComponents id) ids = some id := by
  have hfind : (ids.find? fun other =>
      sameLetters (leadingComponents other) (leadingComponents id)) = some id := by
    unfold nearest at h
    split at h
    · next found hfound =>
      obtain rfl := Option.some.inj h
      have hsame := List.find?_some hfound
      simp only [sameLetters_iff] at hsame
      have hletters : (fun other => sameLetters (leadingComponents other)
          (leadingComponents found)) = fun other => sameLetters (leadingComponents other) n := by
        simp only [sameLetters, hsame]
      rw [hletters]
      exact hfound
    · obtain ⟨before, after, rfl, hbefore, -⟩ := exists_split_of_firstGreatest h
      refine List.find?_eq_some_iff_append.2 ⟨by simp [sameLetters], before, after, rfl, ?_⟩
      intro other hother
      -- what has the letters of the namespace is as near, and would come first
      have hlt := hbefore other hother
      simp only [Bool.not_eq_true', ← Bool.not_eq_true]
      intro hsame
      rw [nearness, nearness, sameLetters_iff.1 hsame] at hlt
      omega
  rw [nearest, hfind]

theorem nearest_of_head? (h : ids.head? = some id) :
    nearest (leadingComponents id) ids = some id := by
  cases ids with
  | nil => cases h
  | cons first more =>
    obtain rfl := Option.some.inj h
    simp [nearest, sameLetters]

theorem mem_of_nearest {n : String} (h : nearest n ids = some id) : id ∈ ids := by
  unfold nearest at h
  split at h
  · next found hfound =>
    obtain rfl := Option.some.inj h
    exact List.mem_of_find?_eq_some hfound
  · obtain ⟨before, after, rfl, -⟩ := exists_split_of_firstGreatest h
    simp

theorem mem_of_findShort? (h : c.findShort? name near = some id) :
    id ∈ c.ids ∧ sameLetters (lastComponent id) (lastComponent name) = true := by
  rw [← mem_candidates]
  unfold findShort? at h
  split at h
  · exact mem_of_nearest h
  · exact List.mem_of_head? h

/-- **Looking a name up again**, near the namespace of what was found, finds
the same. -/
theorem find?_again (h : c.find? name near = .ok (some id)) (hname : '.' ∉ name.toList)
    (hid : '.' ∈ id.toList → leadingComponents id ≠ "") :
    c.find? name (some (leadingComponents id)) = .ok (some id) := by
  unfold find? at h ⊢
  split at h
  · next hcontains => simpa [hcontains] using h
  next hcontains =>
  rw [if_neg hcontains]
  split at h
  · exact h
  next hnone =>
  split at h
  · cases h
  next htexts =>
  rw [if_neg htexts]
  have hshort : c.findShort? name near = some id := Except.ok.inj h
  obtain ⟨hmem, hlast⟩ := mem_of_findShort? hshort
  have hdotted : '.' ∈ id.toList := by
    -- without a dot it would have the letters of the name
    by_contra hundotted
    rw [lastComponent_of_undotted hundotted, lastComponent_of_undotted hname] at hlast
    have hother := find?_reverse_eq_none.1 hnone id hmem
    rw [hlast] at hother
    cases hother
  have hnear : (some (leadingComponents id)).filter (· ≠ "") = some (leadingComponents id) := by
    simp [hid hdotted]
  refine congrArg Except.ok ?_
  unfold findShort? at hshort ⊢
  rw [hnear]
  split at hshort
  · exact nearest_again hshort
  · exact nearest_of_head? hshort

end Catalog

namespace Body

open Annotated (typeMember)
open Text (leadingComponents)

variable {ix : Index} {f g : Frame} {members : List (String × Json)} {r : ResolvedRequest}
  {s c : Site} {body : Json} {short : String} {t : TypeDescriptor}
  {near enclosing : Option String} {hidden : Bool}

/-! ## Types of objects -/

/-- That an object names a type by its last component alone, with hash signs in
front at most. -/
structure NamesShortly (members : List (String × Json)) (short : String) : Prop where
  named : ∃ text, members.lookup typeMember = some (.str text) ∧
    String.ofList (text.toList.dropWhile (· == '#')) = short ∧
    Annotated.overrideOf (.str text) = some short
  ne_empty : short ≠ ""
  undotted : '.' ∉ short.toList

/-- No namespace is an empty one. -/
theorem objectType?_empty (name : String) :
    objectType? ix name (some "") = objectType? ix name none := by
  have hfind : ∀ key, ix.catalog.find? key (some "") = ix.catalog.find? key none := fun _ => rfl
  simp only [objectType?, Index.describeType, Catalog.describe, hfind]

/-- A type is found again near its own namespace. -/
theorem objectType?_again (h : objectType? ix short near = .ok (some t))
    (hshort : '.' ∉ short.toList) (hname : '.' ∈ t.name.toList → leadingComponents t.name ≠ "") :
    objectType? ix short (some (leadingComponents t.name)) = .ok (some t) := by
  obtain ⟨t', ht', hfilter⟩ := Outcome.bind_eq_ok.1 h
  replace hfilter := Outcome.pure_eq_ok.1 hfilter
  obtain ⟨rfl, hkind⟩ := Option.filter_eq_some_iff.1 hfilter
  obtain ⟨found, hfound, hbuild⟩ := Outcome.bind_eq_ok.1 ht'
  cases found with
  | none => cases hbuild
  | some id =>
    obtain rfl := Catalog.name_of_buildType hbuild
    have hundotted : '.' ∉ (String.ofList (short.toList.dropWhile (· == '#'))).toList := by
      rw [String.toList_ofList]
      exact fun hmem => hshort ((List.dropWhile_sublist _).subset hmem)
    have hagain := Catalog.find?_again hfound hundotted hname
    refine Outcome.bind_eq_ok.2 ⟨some t, ?_, Outcome.pure_eq_ok.2 hfilter⟩
    exact Outcome.bind_eq_ok.2 ⟨some t.name, hagain, hbuild⟩

/-- The own type of an object in a frame is looked up near the frame. -/
theorem NamesShortly.ownType?_eq (h : NamesShortly members short) :
    ownType? ix f members = objectType? ix short f.near := by
  obtain ⟨text, hlookup, -, hoverride⟩ := h.named
  have hfilter : (some short).filter (· ≠ "") = some short := by simp [h.ne_empty]
  rw [ownType?, hlookup, Option.bind_some, hoverride, hfilter]

/-! ## Namespaces of frames -/

/-- That a frame has a namespace only when its type is one of the schema. -/
def Frame.Bare (f : Frame) : Prop :=
  f.type.synthesized = true → f.type.namespaceName = ""

theorem bare_of_declared? (h : s.declared? r members = .ok (some f)) : f.Bare :=
  fun hsynthesized => (isSettled_of_declared? h hsynthesized).1

theorem bare_of_plan (h : (s.plan r members).outcome = .ok (.frame g)) : g.Bare :=
  fun hsynthesized => ((isFrame_of_plan h).isSettled hsynthesized).1

/-! ## Enclosing types -/

/-- The namespace of the nearest enclosing object of a type of the schema, none
where there is no such object, and whether an object that is declared in place
stands in between. -/
inductive Situated (r : ResolvedRequest) (body : Json) : Site → Option String → Bool → Prop
  | root : Situated r body (Site.root r body) none false
  | typed {s c : Site} {members : List (String × Json)} {f : Frame} {enclosing : Option String}
      {hidden : Bool} : Situated r body s enclosing hidden → s.value = .obj members →
      (s.plan r members).outcome = .ok (.frame f) → f.type.synthesized = false →
      Site.Child r s c → Situated r body c (some f.type.namespaceName) false
  | inline {s c : Site} {members : List (String × Json)} {f : Frame} {enclosing : Option String}
      {hidden : Bool} : Situated r body s enclosing hidden → s.value = .obj members →
      (s.plan r members).outcome = .ok (.frame f) → f.type.synthesized = true →
      Site.Child r s c → Situated r body c enclosing true
  /-- Arrays and maps have no type. -/
  | untyped {s c : Site} {enclosing : Option String} {hidden : Bool} :
      Situated r body s enclosing hidden →
      (∀ members f, s.value = .obj members → (s.plan r members).outcome ≠ .ok (.frame f)) →
      Site.Child r s c → Situated r body c enclosing hidden

theorem Situated.reached (h : Situated r body s enclosing hidden) : Site.Reached r body s := by
  induction h with
  | root => exact .refl
  | typed _ _ _ _ hchild ih => exact ih.tail hchild
  | inline _ _ _ _ hchild ih => exact ih.tail hchild
  | untyped _ _ hchild ih => exact ih.tail hchild

theorem exists_situated (h : Site.Reached r body s) :
    ∃ enclosing hidden, Situated r body s enclosing hidden := by
  induction h with
  | refl => exact ⟨none, false, .root⟩
  | @tail s c _ hchild ih =>
    obtain ⟨enclosing, hidden, hs⟩ := ih
    by_cases hframe : ∃ members f, s.value = .obj members ∧
        (s.plan r members).outcome = .ok (.frame f)
    · obtain ⟨members, f, hvalue, hplan⟩ := hframe
      cases hsynthesized : f.type.synthesized with
      | true => exact ⟨_, _, .inline hs hvalue hplan hsynthesized hchild⟩
      | false => exact ⟨_, _, .typed hs hvalue hplan hsynthesized hchild⟩
    · refine ⟨_, _, .untyped hs ?_ hchild⟩
      intro members f hvalue hplan
      exact hframe ⟨members, f, hvalue, hplan⟩

/-- Below an object of a frame names are looked up near the frame. -/
theorem near_of_frame (hchild : Site.Child r s c) (hvalue : s.value = .obj members)
    (hplan : (s.plan r members).outcome = .ok (.frame f)) : c.near = some f.type.namespaceName := by
  have hsame : ∀ {members' : List (String × Json)}, s.value = .obj members' →
      members' = members := by
    intro members' hvalue'
    exact Json.obj.inj (hvalue'.symm.trans hvalue)
  cases hchild with
  | element hvalue' _ _ => cases hvalue.symm.trans hvalue'
  | staying hvalue' hplan' _ _ =>
    obtain rfl := hsame hvalue'
    obtain rfl := ObjectPlan.frame.inj (Except.ok.inj (hplan.symm.trans hplan'))
    rfl
  | leaving hvalue' hplan' _ =>
    obtain rfl := hsame hvalue'
    obtain rfl := ObjectPlan.frame.inj (Except.ok.inj (hplan.symm.trans hplan'))
    rfl
  | entry hvalue' hplan' _ =>
    obtain rfl := hsame hvalue'
    cases hplan.symm.trans hplan'

/-- Below an array or a map names are looked up near what is near it. -/
theorem near_of_no_frame (hchild : Site.Child r s c)
    (hno : ∀ members f, s.value = .obj members → (s.plan r members).outcome ≠ .ok (.frame f)) :
    c.near = s.near := by
  cases hchild with
  | element _ _ _ => rfl
  | staying hvalue hplan _ _ => exact absurd hplan (hno _ _ hvalue)
  | leaving hvalue hplan _ => exact absurd hplan (hno _ _ hvalue)
  | entry _ _ _ => rfl

/-- **What is near a site**: the nearest enclosing type of the schema, unless an
object that is declared in place is nearer. -/
theorem near_of_situated (h : Situated r body s enclosing hidden) :
    s.near = if hidden then some "" else enclosing := by
  induction h with
  | root => rfl
  | typed _ hvalue hplan _ hchild _ => exact near_of_frame hchild hvalue hplan
  | inline hs hvalue hplan hsynthesized hchild _ =>
    rw [near_of_frame hchild hvalue hplan, bare_of_plan hplan hsynthesized]
    rfl
  | untyped _ hno hchild ih => rw [near_of_no_frame hchild hno, ih]

/-! ## Short names -/

/-- The namespace that a short name is looked up near: of the declared type,
else of the nearest enclosing one, and none at and below an object that is
declared in place. -/
def nearFor (declared : Option Frame) (enclosing : Option String) (hidden : Bool) :
    Option String :=
  match declared with
  | some f => if f.type.synthesized then none else some f.type.namespaceName
  | none => if hidden then none else enclosing

/-- The node of an object that names a type, by what the name leads to: an
object of the type that it leads to, and without one what is declared. -/
inductive NamedNode (declared : Option Frame) : Option TypeDescriptor → BodyNode → Prop
  | found {t : TypeDescriptor} {ms : List (String × BodyNode)} {derived : Bool} :
      NamedNode declared (some t) (.object (TypeRef.ofName t.name) ms derived)
  | kept {f : Frame} {ms : List (String × BodyNode)} : declared = some f →
      NamedNode declared none (.object f.type ms f.derived)
  | map {ms : List (String × BodyNode)} : declared = none → NamedNode declared none (.map ms)
  /-- A name without a namespace in spite of its dot is looked up near none in
  the end. -/
  | dot {t : TypeDescriptor} {n : BodyNode} : declared = none → '.' ∈ t.name.toList →
      leadingComponents t.name = "" → NamedNode declared (some t) n

/-- A declared type decides what is near, one that is declared in place that
nothing is. -/
theorem objectType?_near_frame (hdeclared : s.declared? r members = .ok (some f)) :
    objectType? ix short f.near = objectType? ix short (nearFor (some f) enclosing hidden) := by
  -- an empty namespace and none lead to the same types
  cases hsynthesized : f.type.synthesized with
  | false => simp [nearFor, Frame.near, hsynthesized]
  | true =>
    have hbare := bare_of_declared? hdeclared hsynthesized
    simp [nearFor, Frame.near, hsynthesized, hbare, objectType?_empty]

/-- Where nothing is declared the type is looked up near the site. -/
theorem objectType?_near_site (hs : Situated r body s enclosing hidden) :
    objectType? ix short s.near = objectType? ix short (nearFor none enclosing hidden) := by
  rw [near_of_situated hs]
  cases hidden with
  | false => rfl
  | true => exact objectType?_empty short

theorem NamesShortly.untypedFrame?_eq (h : NamesShortly members short) :
    untypedFrame? ix near members = objectType? ix short near >>= fun t? =>
      match t? with
      | some t => some <$> frameOf ix (TypeRef.ofName t.name)
      | none => pure none := by
  obtain ⟨text, hlookup, rfl, -⟩ := h.named
  unfold untypedFrame?
  split
  · next other hother =>
    obtain rfl := Json.str.inj (Option.some.inj (hlookup.symm.trans hother))
    rfl
  · next hno => exact absurd hlookup (hno text)

/-- An object that a type is declared for. -/
theorem namedNode_of_declared {plan : ObjectPlan} {m : BodyNode}
    (hname : NamesShortly members short) (hdeclared : s.declared? r members = .ok (some f))
    (hrefined : refined r.index members (some f) = .ok plan)
    (hread : (plan.node r.index s.near members).outcome = .ok m) :
    ∃ t?, objectType? r.index short (nearFor (some f) enclosing hidden) = .ok t? ∧
      NamedNode (some f) t? m := by
  obtain ⟨t?, ht, rfl⟩ := Outcome.map_eq_ok.1 hrefined
  rw [hname.ownType?_eq, objectType?_near_frame hdeclared] at ht
  obtain ⟨placed, -, rfl⟩ := Noted.outcome_map_eq_ok.1 hread
  refine ⟨t?, ht, ?_⟩
  cases t? with
  | none => exact .kept rfl
  | some t => exact .found

/-- An object that nothing is declared for. -/
theorem namedNode_of_undeclared {f? : Option Frame} {plan : ObjectPlan} {m : BodyNode}
    (hname : NamesShortly members short) (hs : Situated r body s enclosing hidden)
    (hframe : untypedFrame? r.index s.near members = .ok f?)
    (hrefined : refined r.index members f? = .ok plan)
    (hread : (plan.node r.index s.near members).outcome = .ok m) :
    ∃ t?, objectType? r.index short (nearFor none enclosing hidden) = .ok t? ∧
      NamedNode none t? m := by
  rw [hname.untypedFrame?_eq, objectType?_near_site hs] at hframe
  obtain ⟨t?, ht, hframe⟩ := Outcome.bind_eq_ok.1 hframe
  refine ⟨t?, ht, ?_⟩
  cases t? with
  | none =>
    obtain rfl := Outcome.pure_eq_ok.1 hframe
    obtain rfl := Except.ok.inj hrefined
    obtain ⟨entries, -, rfl⟩ := Noted.outcome_map_eq_ok.1 hread
    exact .map rfl
  | some t =>
    by_cases hdot : '.' ∈ t.name.toList ∧ leadingComponents t.name = ""
    · exact .dot rfl hdot.1 hdot.2
    obtain ⟨f, hf, rfl⟩ := Outcome.map_eq_ok.1 hframe
    obtain ⟨properties, -, hf⟩ := Outcome.bind_eq_ok.1 hf
    obtain rfl := Outcome.pure_eq_ok.1 hf
    -- the name is looked up a second time, near the namespace of what it led to
    obtain ⟨again, hagain, rfl⟩ := Outcome.map_eq_ok.1 hrefined
    rw [hname.ownType?_eq] at hagain
    have hsame := objectType?_again ht hname.undotted fun hmem hns => hdot ⟨hmem, hns⟩
    obtain rfl := Except.ok.inj (hsame.symm.trans hagain)
    obtain ⟨placed, -, rfl⟩ := Noted.outcome_map_eq_ok.1 hread
    exact .found

/-- **What a short name is looked up near.** In a body that is built every site
is situated, and an object that names a type by its last component is of the
type that the name leads to near the declared type, or near the nearest
enclosing type of the schema where none is declared. Only an object that is
declared in place has nothing near it, and hides what is near from the objects
below. -/
theorem short_names_near {g : BodyGraph} (hsent : sentJson? r = some body)
    (hbuild : (build r).outcome = .ok (some g)) :
    (∀ s, Site.Reached r body s → ∃ enclosing hidden, Situated r body s enclosing hidden) ∧
    ∀ s enclosing hidden members short, Situated r body s enclosing hidden →
      s.value = .obj members → NamesShortly members short →
      ∃ declared t? m, s.declared? r members = .ok declared ∧
        objectType? r.index short (nearFor declared enclosing hidden) = .ok t? ∧
        g.root.descendant? s.path = some m ∧ NamedNode declared t? m := by
  refine ⟨fun s hs => exists_situated hs, ?_⟩
  intro s enclosing hidden members short hs hvalue hname
  obtain ⟨m, hm, hnode⟩ := exists_node_of_build hsent hs.reached hbuild
  obtain ⟨plan, hplan, hread⟩ := Site.exists_plan_of_node hvalue hnode
  have hfault : ∀ cause, plan ≠ .fault cause := by
    rintro cause rfl
    cases hread
  obtain ⟨f?, hf, hrefined⟩ := Outcome.bind_eq_ok.1 (Site.outcome_plan hs.reached hplan hfault)
  obtain ⟨declared, hdeclared, hf⟩ := Outcome.bind_eq_ok.1 hf
  cases declared with
  | some f =>
    obtain rfl := Outcome.pure_eq_ok.1 hf
    obtain ⟨t?, ht, hnamed⟩ := namedNode_of_declared hname hdeclared hrefined hread
    exact ⟨some f, t?, m, hdeclared, ht, hm, hnamed⟩
  | none =>
    obtain ⟨t?, ht, hnamed⟩ := namedNode_of_undeclared hname hs hf hrefined hread
    exact ⟨none, t?, m, hdeclared, ht, hm, hnamed⟩

/-- Two types with one short name, and a type with a member declared in place. -/
def thingIndex : Index where
  catalog :=
    { document := .map []
      schemas :=
        [("a.part", .map []), ("b.part", .map []),
          ("b.thing", .map [(.text "properties", .map [(.text "inner",
            .map [(.text "properties", .map [(.text "size", .map [])])])])])] }
  root := default

/-- An object that names a type by its last component. -/
def namingMembers : List (String × Json) :=
  [("@odata.type", .str "#part")]

/-- The members of the body, with that object inside. -/
def thingMembers : List (String × Json) :=
  [("inner", .obj namingMembers)]

/-- The body as a text. -/
def thingText : List Char :=
  "\x7b\"inner\":\x7b\"@odata.type\":\"#part\"\x7d\x7d".toList

/-- A request with this body, for an operation that takes the type. -/
def thingRequest : ResolvedRequest where
  method := .post
  version := "v1.0"
  path := "/things"
  template := "/things"
  segments := [PathSegment.literal "things"]
  operation :=
    { method := .post, requestSchema := some { kind := .object, typeName := some "b.thing" } }
  query := []
  headers := []
  contentType := none
  body := some (Utf8.encode thingText)
  index := thingIndex

/-- The shape of the member that is declared in place. -/
def innerShape : Shape :=
  { kind := .object, properties := [("size", {})] }

/-- What the type of the body is described as. -/
def thingType : TypeDescriptor where
  name := "b.thing"
  namespaceName := "b"
  properties := [("inner", innerShape)]

/-- The frame of the body. -/
def thingFrame : Frame :=
  ⟨TypeRef.ofName "b.thing", false, true, [("inner", innerShape)]⟩

/-- The frame of the object inside. -/
def innerFrame : Frame :=
  ⟨{ name := "Inner", synthesized := true }, false, true, [("size", {})]⟩

/-- The graph of the body. -/
def thingGraph : BodyGraph where
  root := .object (TypeRef.ofName "b.thing")
    [("inner", .object (TypeRef.ofName "a.part") [] true)] false
  typeName := some "Thing"

set_option maxRecDepth 10000 in
theorem read_thing : Json.read (String.ofList thingText) = .ok (.obj thingMembers) := by
  cbv

theorem sentJson?_thing : sentJson? thingRequest = some (.obj thingMembers) :=
  sentJson?_of_read rfl rfl rfl read_thing

theorem objectType?_part_near : objectType? thingIndex "part" (some "b") =
    .ok (some { name := "b.part", namespaceName := "b" }) := by
  cbv

theorem objectType?_part : objectType? thingIndex "part" none =
    .ok (some { name := "a.part", namespaceName := "a" }) := by
  cbv

theorem namesShortly_naming : NamesShortly namingMembers "part" :=
  ⟨⟨"#part", rfl, rfl, rfl⟩, by decide, by decide⟩

theorem describe_thing : thingIndex.describeType "b.thing" none = .ok (some thingType) := by
  cbv

theorem outcome_rootFrame_thing :
    (rootFrame thingIndex thingRequest thingMembers).outcome = .ok thingFrame := by
  have htype : typeRefOf thingIndex "b.thing" = .ok (TypeRef.ofName "b.thing") :=
    Outcome.bind_eq_ok.2 ⟨_, describe_thing, rfl⟩
  have hproperties : propertiesOf thingIndex (TypeRef.ofName "b.thing") =
      .ok [("inner", innerShape)] := Outcome.bind_eq_ok.2 ⟨_, describe_thing, rfl⟩
  show Noted.outcome (Noted.ofOutcome (typeRefOf thingIndex "b.thing") >>= _) = _
  rw [Noted.outcome_bind, Noted.outcome_ofOutcome, htype]
  show (namedFrame thingIndex (TypeRef.ofName "b.thing") thingMembers).outcome = _
  rw [namedFrame, Noted.outcome_bind, Noted.outcome_ofOutcome, hproperties]
  rfl

theorem value_inner : (value thingIndex (some innerShape) (some "b") "inner"
    (.obj namingMembers)).outcome = .ok (.object (TypeRef.ofName "a.part") [] true) := by
  have hframe : declaredFrame? thingIndex (some innerShape) "inner" = .ok (some innerFrame) := rfl
  rw [value, Noted.outcome_bind, outcome_planObject rfl, hframe]
  show (refined thingIndex namingMembers (some innerFrame) >>= _) = _
  rw [refined, namesShortly_naming.ownType?_eq]
  show Except.map _ (objectType? thingIndex "part" (some "")) >>= _ = _
  rw [objectType?_empty, objectType?_part]
  rfl

theorem outcome_build_thing : (build thingRequest).outcome = .ok (some thingGraph) := by
  have hplace : (placeAll thingIndex thingFrame thingMembers).outcome =
      .ok [⟨"inner", .object (TypeRef.ofName "a.part") [] true, false⟩] := by
    have hrole : Annotated.roleOf "inner" = .member := rfl
    have hproperty : thingFrame.property? "inner" = some ("inner", innerShape) := rfl
    have hnear : thingFrame.near = some "b" := rfl
    rw [thingMembers, placeAll, if_neg (by decide), placeAll]
    simp only [Noted.outcome_bind, hrole, hproperty, hnear, value_inner]
    rfl
  rw [outcome_build sentJson?_thing, ofJson, Noted.outcome_bind]
  show Except.map some ((rootFrame thingIndex thingRequest thingMembers).outcome >>= _) = _
  rw [outcome_rootFrame_thing]
  show Except.map some (Noted.outcome (placeAll thingIndex thingFrame thingMembers >>= _)) = _
  rw [Noted.outcome_bind, hplace]
  rfl

/-- The object inside is situated in a type of the schema, near which its name
leads to `b.part`, and is an `a.part`. -/
theorem short_names_near_thing :
    sentJson? thingRequest = some (.obj thingMembers) ∧
      (build thingRequest).outcome = .ok (some thingGraph) ∧
      Situated thingRequest (.obj thingMembers)
        (thingFrame.site [0] "inner" (.obj namingMembers)) (some "b") false ∧
      objectType? thingIndex "part" (some "b") =
        .ok (some { name := "b.part", namespaceName := "b" }) ∧
      ∃ ms derived, thingGraph.root.descendant? [0] =
        some (.object (TypeRef.ofName "a.part") ms derived) := by
  have hplan : ((Site.root thingRequest (.obj thingMembers)).plan thingRequest
      thingMembers).outcome = .ok (.frame thingFrame) := by
    show (ObjectPlan.frame <$> rootFrame thingIndex thingRequest thingMembers).outcome = _
    rw [Noted.outcome_map, outcome_rootFrame_thing]
    rfl
  have hsituated : Situated thingRequest (.obj thingMembers)
      (thingFrame.site [0] "inner" (.obj namingMembers)) (some "b") false :=
    .typed .root rfl hplan rfl (.staying (i := 0) rfl hplan rfl (by decide))
  obtain ⟨declared, t?, m, hdeclared, ht, hm, hnamed⟩ :=
    (short_names_near sentJson?_thing outcome_build_thing).2 _ _ _ _ _ hsituated rfl
      namesShortly_naming
  obtain rfl : some innerFrame = declared := Except.ok.inj hdeclared
  obtain rfl := Except.ok.inj (objectType?_part.symm.trans ht)
  refine ⟨sentJson?_thing, outcome_build_thing, hsituated, objectType?_part_near, ?_⟩
  cases hnamed with
  | found => exact ⟨_, _, hm⟩
  | dot hnone _ _ => cases hnone

end Body

end ApiSnippets
