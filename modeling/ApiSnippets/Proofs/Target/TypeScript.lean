import ApiSnippets.Proofs.Body.Conformance
import ApiSnippets.Proofs.Body.OwnTypes
import ApiSnippets.Proofs.Code.Imports
import ApiSnippets.Proofs.Target.Literals
/-!
# Asserted types in TypeScript

The expression for a body has the same tree as its graph, so that the way to a
node is also the way to what is written for it (`express_descendant?`). An
object that names its own type is written with that type asserted, and the type
is imported, unless the name is that of the type in whose frame the object is
read (`generate_asserts`). Where a type is declared this is the declared one.
Where none is declared it is the object's own, so that nothing is asserted.
-/

namespace ApiSnippets

/-! ## Graphs and expressions as trees -/

namespace Expression

/-- The parts of an expression, in their order. -/
def children : Expression → List Expression
  | leaf _ => []
  | group _ _ members _ => members.map Prod.snd

/-- The part that a way leads to, which tells the number of a part at every
step. -/
def descendant? : Expression → List Nat → Option Expression
  | e, [] => some e
  | e, i :: path => (e.children[i]?).bind fun c => descendant? c path

end Expression

namespace InitializerStyle

variable {d : Dialect} {s : InitializerStyle}

theorem forall₂_expressAll {ns : List BodyNode} {es : List (String × Expression)}
    (h : s.expressAll d ns = .ok es) :
    List.Forall₂ (fun n e => s.express d n = .ok e.2) ns es := by
  induction ns generalizing es with
  | nil =>
    rw [expressAll] at h
    obtain rfl := Except.ok.inj h
    exact .nil
  | cons n ns ih =>
    rw [expressAll] at h
    obtain ⟨e, he, h⟩ := Outcome.bind_eq_ok.1 h
    obtain ⟨more, hmore, h⟩ := Outcome.bind_eq_ok.1 h
    obtain rfl := Outcome.pure_eq_ok.1 h
    exact .cons he (ih hmore)

theorem forall₂_expressMembers {start : String → String} {ms : List (String × BodyNode)}
    {es : List (String × Expression)} (h : s.expressMembers d start ms = .ok es) :
    List.Forall₂ (fun n e => s.express d n = .ok e.2) (ms.map Prod.snd) es := by
  induction ms generalizing es with
  | nil =>
    rw [expressMembers] at h
    obtain rfl := Except.ok.inj h
    exact .nil
  | cons m ms ih =>
    obtain ⟨name, n⟩ := m
    rw [expressMembers] at h
    obtain ⟨e, he, h⟩ := Outcome.bind_eq_ok.1 h
    obtain ⟨more, hmore, h⟩ := Outcome.bind_eq_ok.1 h
    obtain rfl := Outcome.pure_eq_ok.1 h
    exact .cons he (ih hmore)

/-- The expression for an object. -/
theorem express_object {t : TypeRef} {members : List (String × BodyNode)} {derived : Bool}
    {e : Expression} (h : s.express d (.object t members derived) = .ok e) :
    ∃ parts, s.expressMembers d s.field members = .ok parts ∧
      e = .group (s.objectHead t).1 (s.objectHead t).2 parts (s.objectEnd t derived) := by
  rw [express] at h
  obtain ⟨parts, hparts, h⟩ := Outcome.bind_eq_ok.1 h
  exact ⟨parts, hparts, (Outcome.pure_eq_ok.1 h).symm⟩

/-- The parts of an expression are the expressions for the children. -/
theorem forall₂_children {n : BodyNode} {e : Expression} (h : s.express d n = .ok e) :
    List.Forall₂ (fun c part => s.express d c = .ok part) n.children e.children := by
  cases n with
  | object t members derived =>
    obtain ⟨parts, hparts, rfl⟩ := express_object h
    exact List.forall₂_map_right_iff.2 (forall₂_expressMembers hparts)
  | map members =>
    rw [express] at h
    obtain ⟨parts, hparts, h⟩ := Outcome.bind_eq_ok.1 h
    obtain rfl := Outcome.pure_eq_ok.1 h
    exact List.forall₂_map_right_iff.2 (forall₂_expressMembers hparts)
  | array item elements =>
    cases elements with
    | nil =>
      rw [express] at h
      obtain rfl := Except.ok.inj h
      exact .nil
    | cons n ns =>
      rw [express] at h
      obtain ⟨first, hfirst, h⟩ := Outcome.bind_eq_ok.1 h
      obtain ⟨parts, hparts, h⟩ := Outcome.bind_eq_ok.1 h
      obtain rfl := Outcome.pure_eq_ok.1 h
      exact .cons hfirst (List.forall₂_map_right_iff.2 (forall₂_expressAll hparts))
  | _ =>
    obtain ⟨text, -, h⟩ := Outcome.bind_eq_ok.1 h
    obtain rfl := Outcome.pure_eq_ok.1 h
    exact .nil

/-- **The way to a node** is the way to its expression. -/
theorem express_descendant? {path : List Nat} {n m : BodyNode} {e : Expression}
    (h : s.express d n = .ok e) (hm : n.descendant? path = some m) :
    ∃ part, e.descendant? path = some part ∧ s.express d m = .ok part := by
  induction path generalizing n e with
  | nil =>
    obtain rfl := Option.some.inj hm
    exact ⟨e, rfl, h⟩
  | cons i path ih =>
    obtain ⟨c, hc, hm⟩ := Option.bind_eq_some_iff.1 hm
    obtain ⟨part, hpart, hexpress⟩ := Outcome.exists_getElem?_of_forall₂ (forall₂_children h) hc
    obtain ⟨found, hfound, hread⟩ := ih hexpress hm
    refine ⟨found, ?_, hread⟩
    rw [Expression.descendant?, hpart]
    exact hfound

end InitializerStyle

namespace Imports

/-- An index that can look up any name has imports for any text. -/
theorem exists_resolve {r : ResolvedRequest} (l : Language) (body : Option BodyGraph)
    (text : Option String) (h : ∀ name, ∃ t, r.index.describeType name none = .ok t) :
    ∃ lines, resolve r l body text = .ok lines := by
  have hnamed (name : String) : ∃ t, typeNamed? r name = .ok t := by
    unfold typeNamed?
    split
    · exact ⟨_, rfl⟩
    · obtain ⟨t, ht⟩ := h name
      rw [ht]
      exact ⟨_, rfl⟩
  -- only names found in the text of the draft are looked up
  have hall (names : List String) : ∃ ts, Outcome.mapAll (typeNamed? r) names = .ok ts := by
    induction names with
    | nil => exact ⟨[], rfl⟩
    | cons name names ih =>
      obtain ⟨t, ht⟩ := hnamed name
      obtain ⟨ts, hts⟩ := ih
      exact ⟨t :: ts, by rw [Outcome.mapAll, ht, hts]; rfl⟩
  unfold resolve
  cases l.imports with
  | none => exact ⟨[], rfl⟩
  | some s =>
    cases text with
    | none => exact ⟨_, rfl⟩
    | some text =>
      simp only [ofText]
      obtain ⟨ts, hts⟩ := hall ((Scan.typeNames text).filter fun name =>
        !(((body.map fun g => s.types g.root).getD []).map fun t =>
          Text.lower t.shortName).contains (Text.lower name))
      rw [hts]
      exact ⟨_, rfl⟩

end Imports

namespace TypeScript

open Body (Site)

variable {r : ResolvedRequest} {g : BodyGraph} {e : Expression}

/-- That a type is asserted of the object at the end of a way, and imported,
unless it has the name of another type already. Then the object is written
without a type. -/
def AssertsUnless (r : ResolvedRequest) (e : Expression) (imports : List String) (path : List Nat)
    (other : String) (t : TypeRef) : Prop :=
  if t.name = other then ∃ ms, e.descendant? path = some (.group "\x7b" [] ms "\x7d")
  else (∃ ms, e.descendant? path =
      some (.group "\x7b" [] ms ("\x7d as " ++ Package.className t))) ∧
    Imports.Has language (model r.segments t) imports

/-- The code of an object that names its own type. -/
theorem assertsUnless_of_object {path : List Nat} {ms : List (String × BodyNode)} {t : TypeRef}
    {other : String} {text : Option String} {imports : List String}
    (he : style.express dialect g.root = .ok e)
    (hobject : g.root.descendant? path = some (.object t ms (t.name != other)))
    (himports : Imports.resolve r language (some g) text = .ok imports) :
    AssertsUnless r e imports path other t := by
  obtain ⟨part, hpart, hread⟩ := InitializerStyle.express_descendant? he hobject
  obtain ⟨parts, -, rfl⟩ := InitializerStyle.express_object hread
  unfold AssertsUnless
  split
  · next hsame =>
    refine ⟨parts, ?_⟩
    rw [hpart, hsame, bne_self_eq_false]
    rfl
  · next hother =>
    have hderived : (t.name != other) = true := by simpa using hother
    rw [hderived] at hpart hobject
    refine ⟨⟨parts, hpart⟩, ?_⟩
    have hmem : BodyNode.object t ms true ∈ g.root.walk := BodyNode.mem_walk_of_descendant? hobject
    obtain ⟨all, rfl, hall⟩ := Imports.exists_layout_of_resolve rfl himports
    exact Imports.has_typescript (hall t (mem_types.2 (.inr ⟨_, hmem, rfl⟩)))

/-- A body that is a JSON value is written as an expression. -/
theorem exists_express_of_bodyCode {v : Json} {part : List String × Option String}
    (hg : (Body.ofJson r.index r v).outcome = .ok g) (h : language.bodyCode g r = .ok part) :
    ∃ e start, style.express dialect g.root = .ok e ∧
      part.1 = (e.lines 0 start ";").map Line.write := by
  have hroot : ∀ bs, g.root ≠ .stream bs := by
    intro bs hstream
    have hmirrors := Body.mirrors_ofJson hg
    rw [hstream] at hmirrors
    cases hmirrors with
    | leaf hleaf => cases hleaf
    | object _ hobject => cases hobject
  rw [Language.bodyCode_initializer rfl hroot] at h
  obtain ⟨lines, hlines, rfl⟩ := Outcome.map_eq_ok.1 h
  obtain ⟨e, he, hlines⟩ := Outcome.bind_eq_ok.1 hlines
  obtain rfl := Outcome.pure_eq_ok.1 hlines
  exact ⟨e, _, he, rfl⟩

/-- **Types that objects name are asserted**, at any depth of a body: an object
whose site declares a frame has its own type asserted and imported, unless the
declared type has its name. Where nothing is declared the object's own type
takes the place of the declared one, so it is built and not asserted. -/
theorem generate_asserts {body : Json} {text : String} (hbody : Body.sentJson? r = some body)
    (htext : Snippet.generate language r = .ok text) :
    (∀ v, body.Inside v → ∃ s, Site.Reached r body s ∧ s.value = v) ∧
    ∃ imports e start rest,
      text = Snippet.ofBlocks
        (language.prologue :: imports :: (e.lines 0 start ";").map Line.write :: rest) ∧
      ∀ s members f t, Site.Reached r body s → s.value = .obj members →
        Body.ownType? r.index f members = .ok (some t) →
        (s.declared? r members = .ok (some f) →
          AssertsUnless r e imports s.path f.type.name (TypeRef.ofName t.name)) ∧
        (s.declared? r members = .ok none →
          Body.untypedFrame? r.index s.near members = .ok (some f) →
          AssertsUnless r e imports s.path f.type.name (TypeRef.ofName t.name)) := by
  obtain ⟨sent, draft, imports, hsent, himports, hwrite⟩ := Snippet.generate_eq_ok htext
  rw [Body.outcome_build hbody] at hsent
  obtain ⟨g, hg, rfl⟩ := Outcome.map_eq_ok.1 hsent
  have hroot : ((Site.root r body).node r).outcome = .ok g.root := by
    rw [← Site.outcome_ofJson, hg]
    rfl
  obtain ⟨part, rest, hpart, rfl⟩ := Snippet.write_eq_ok hwrite
  obtain ⟨e, start, he, hlines⟩ := exists_express_of_bodyCode hg hpart
  refine ⟨fun v hv => Site.exists_reached_of_inside hroot hv, imports, e, start, rest, ?_, ?_⟩
  · rw [← hlines]
  · intro s members f t hs hvalue ht
    have hasserts (hf : s.frame? r members = .ok (some f)) :
        AssertsUnless r e imports s.path f.type.name (TypeRef.ofName t.name) := by
      obtain ⟨ms, hobject⟩ := Site.exists_object_of_frame? hs hvalue hroot hf ht
      exact assertsUnless_of_object he hobject himports
    constructor
    · intro hf
      refine hasserts ?_
      rw [Site.frame?, hf]
      rfl
    · intro hnone hf
      refine hasserts ?_
      rw [Site.frame?, hnone]
      exact hf

/-- An object that names the type `ns.part`, and nothing else. -/
def partMembers : List (String × Json) :=
  [("@odata.type", .str "ns.part")]

/-- A member of the schema and one that it does not declare. -/
def partsMembers : List (String × Json) :=
  [("part", .obj partMembers), ("other", .obj partMembers)]

/-- An index of the type `ns.part`. -/
def partIndex : Index :=
  { catalog := { document := .map [], schemas := [("ns.part", .map [])] }, root := default }

/-- The members as a text. -/
def partsText : List Char :=
  "\x7b\"part\":\x7b\"@odata.type\":\"ns.part\"\x7d,".toList ++
    "\"other\":\x7b\"@odata.type\":\"ns.part\"\x7d\x7d".toList

/-- A request with these members, for an operation that declares one of them. -/
def partsRequest : ResolvedRequest where
  method := .post
  version := "v1.0"
  path := "/things"
  template := "/things"
  segments := [PathSegment.literal "things"]
  operation :=
    { method := .post
      requestSchema := some
        { kind := .object, title := some "thing",
          properties := [("part", { kind := .object, typeName := some "ns.base" })] } }
  query := []
  headers := []
  contentType := none
  body := some (Utf8.encode partsText)
  index := partIndex

/-- The graph of these members. -/
def partsGraph : BodyGraph where
  root := .object { name := "Thing", synthesized := true }
    [("part", .object (TypeRef.ofName "ns.part") [] true),
      (Body.additionalData, .map [("other", .object (TypeRef.ofName "ns.part") [] false)])] false
  typeName := some "Thing"

/-- The type of the index. -/
def partType : TypeDescriptor :=
  { name := "ns.part", namespaceName := "ns" }

/-- The frame of the whole body. -/
def thingFrame : Body.Frame :=
  ⟨{ name := "Thing", synthesized := true }, false, true,
    [("part", { kind := .object, typeName := some "ns.base" })]⟩

/-- The frame that is declared for one object. -/
def baseFrame : Body.Frame :=
  ⟨TypeRef.ofName "ns.base", false, true, []⟩

/-- The frame that the other object declares for itself. -/
def partFrame : Body.Frame :=
  ⟨TypeRef.ofName "ns.part", false, true, []⟩

theorem declaredFrame?_part : Body.declaredFrame? partIndex
    (some { kind := .object, typeName := some "ns.base" }) "part" = .ok (some baseFrame) := by
  cbv

theorem untypedFrame?_part :
    Body.untypedFrame? partIndex (some "") partMembers = .ok (some partFrame) := by
  have htype : Body.objectType? partIndex "ns.part" (some "") = .ok (some partType) := by cbv
  have hframe : Body.frameOf partIndex (TypeRef.ofName "ns.part") = .ok partFrame := by cbv
  show Body.objectType? partIndex "ns.part" (some "") >>= _ = _
  rw [htype]
  show some <$> Body.frameOf partIndex (TypeRef.ofName "ns.part") = _
  rw [hframe]
  rfl

theorem describeType_part :
    partIndex.describeType "ns.part" (some "ns") = .ok (some partType) := by
  cbv

theorem ownType?_part {f : Body.Frame} (h : f.near = some "ns") :
    Body.ownType? partIndex f partMembers = .ok (some partType) := by
  show (partIndex.describeType "ns.part" f.near >>= fun t =>
    pure (t.filter (·.kind != .enum))) = _
  rw [h, describeType_part]
  rfl

set_option maxRecDepth 10000 in
theorem read_parts : Json.read (String.ofList partsText) = .ok (.obj partsMembers) := by
  cbv

theorem sentJson?_parts : Body.sentJson? partsRequest = some (.obj partsMembers) :=
  Body.sentJson?_of_read rfl rfl rfl read_parts

theorem value_part : (Body.value partIndex (some { kind := .object, typeName := some "ns.base" })
    (some "") "part" (.obj partMembers)).outcome =
      .ok (.object (TypeRef.ofName "ns.part") [] true) := by
  rw [Body.value, Noted.outcome_bind, Body.outcome_planObject rfl, declaredFrame?_part]
  show (Body.refined partIndex partMembers (some baseFrame) >>= _) = _
  rw [Body.refined, ownType?_part rfl]
  rfl

theorem untyped_part : (Body.untyped partIndex (some "") (.obj partMembers)).outcome =
    .ok (.object (TypeRef.ofName "ns.part") [] false) := by
  rw [Body.untyped, Noted.outcome_bind, Body.outcome_planUntyped, untypedFrame?_part]
  show (Body.refined partIndex partMembers (some partFrame) >>= _) = _
  rw [Body.refined, ownType?_part rfl]
  rfl

theorem placeAll_parts : (Body.placeAll partIndex thingFrame partsMembers).outcome =
    .ok [⟨"part", .object (TypeRef.ofName "ns.part") [] true, false⟩,
      ⟨"other", .object (TypeRef.ofName "ns.part") [] false, true⟩] := by
  have hnear : thingFrame.near = some "" := rfl
  have hpart : Annotated.roleOf "part" = .member := rfl
  have hother : Annotated.roleOf "other" = .member := rfl
  have hdeclared : thingFrame.property? "part" =
      some ("part", { kind := .object, typeName := some "ns.base" }) := rfl
  have hundeclared : thingFrame.property? "other" = none := rfl
  rw [partsMembers, Body.placeAll, if_neg (by decide), Body.placeAll, if_neg (by decide),
    Body.placeAll]
  simp only [Noted.outcome_bind, hpart, hother, hdeclared, hundeclared, hnear, value_part,
    untyped_part]
  rfl

theorem outcome_rootFrame_parts :
    (Body.rootFrame partIndex partsRequest partsMembers).outcome = .ok thingFrame := rfl

theorem outcome_build_parts : (Body.build partsRequest).outcome = .ok (some partsGraph) := by
  rw [Body.outcome_build sentJson?_parts, Body.ofJson, Noted.outcome_bind]
  show Except.map some ((Body.rootFrame partIndex partsRequest partsMembers).outcome >>= _) = _
  rw [outcome_rootFrame_parts]
  show Except.map some (Noted.outcome (Body.placeAll partIndex thingFrame partsMembers >>= _)) = _
  rw [Noted.outcome_bind, placeAll_parts]
  rfl

/-- The index can look up any name. -/
theorem exists_describeType_part (name : String) (near : Option String) :
    ∃ t, partIndex.describeType name near = .ok t := by
  have hfind : ∃ found, partIndex.catalog.find?
      (String.ofList (name.toList.dropWhile (· == '#'))) near = .ok found := by
    unfold Catalog.find?
    split
    · exact ⟨_, rfl⟩
    · split
      · exact ⟨_, rfl⟩
      · exact ⟨_, rfl⟩
  obtain ⟨found, hfound⟩ := hfind
  rw [Index.describeType, Catalog.describe, hfound]
  cases found with
  | none => exact ⟨none, rfl⟩
  | some id =>
    show ∃ t, partIndex.catalog.buildType id [] _ = .ok t
    -- there is one schema, so any other name is of no type
    by_cases hid : id = "ns.part"
    · subst hid
      exact ⟨some partType, by cbv⟩
    · refine ⟨none, ?_⟩
      have hother : (id == "ns.part") = false := by simpa using hid
      have hlookup : partIndex.catalog.schemas.lookup id = none := by
        simp [partIndex, List.lookup_cons, hother]
      rw [Catalog.buildType, if_neg (by simp [partIndex])]
      split
      · rfl
      · next v hv =>
        rw [hlookup] at hv
        cases hv

theorem exists_generate_parts : ∃ text, Snippet.generate language partsRequest = .ok text := by
  have hwrite (imports : List String) :
      ∃ text, Snippet.write language partsRequest (some partsGraph) imports = .ok text := ⟨_, rfl⟩
  obtain ⟨draft, hdraft⟩ := hwrite []
  obtain ⟨imports, himports⟩ := Imports.exists_resolve (r := partsRequest) language
    (some partsGraph) (some draft) fun name => exists_describeType_part name none
  obtain ⟨text, htext⟩ := hwrite imports
  exact ⟨text, Outcome.bind_eq_ok.2 ⟨_, outcome_build_parts, Outcome.bind_eq_ok.2
    ⟨draft, hdraft, Outcome.bind_eq_ok.2 ⟨imports, himports, htext⟩⟩⟩⟩

/-- The type is asserted of the object that the schema declares to be something
else, and lost on the one that it does not declare. -/
theorem generate_asserts_part : ∃ (text : String) (imports : List String) (e : Expression)
    (start : String) (rest : List (List String)),
    Snippet.generate language partsRequest = .ok text ∧
    text = Snippet.ofBlocks
      (language.prologue :: imports :: (e.lines 0 start ";").map Line.write :: rest) ∧
    (∃ ms, e.descendant? [0] = some (.group "\x7b" [] ms "\x7d as Part")) ∧
    (∃ ms, e.descendant? [1, 0] = some (.group "\x7b" [] ms "\x7d")) ∧
    Imports.Has language ⟨"Part", "@microsoft/msgraph-sdk/models/ns"⟩ imports := by
  obtain ⟨text, htext⟩ := exists_generate_parts
  obtain ⟨-, imports, e, start, rest, hblocks, hall⟩ := generate_asserts sentJson?_parts htext
  have hroot : ((Site.root partsRequest (.obj partsMembers)).plan partsRequest
      partsMembers).outcome = .ok (.frame thingFrame) := rfl
  have hpart : Site.Reached partsRequest (.obj partsMembers)
      (thingFrame.site ([] ++ [0]) "part" (.obj partMembers)) :=
    .single (.staying rfl hroot rfl (by decide))
  have hother : Site.Reached partsRequest (.obj partsMembers)
      (thingFrame.site ([] ++ [1, 0]) "other" (.obj partMembers)) :=
    .single (.leaving rfl hroot rfl)
  have hasserted := (hall _ _ baseFrame partType hpart rfl (ownType?_part rfl)).1
    declaredFrame?_part
  have hlost := (hall _ _ partFrame partType hother rfl (ownType?_part rfl)).2 rfl
    untypedFrame?_part
  rw [AssertsUnless, if_neg (by decide)] at hasserted
  rw [AssertsUnless, if_pos (by decide)] at hlost
  exact ⟨text, imports, e, start, rest, htext, hblocks, hasserted.1, hlost, hasserted.2⟩

end TypeScript

end ApiSnippets
