import ApiSnippets.Code.Language
import ApiSnippets.Proofs.Body.Enums
import ApiSnippets.Proofs.Body.FrameTypes
import ApiSnippets.Proofs.Body.InlineObjects
import ApiSnippets.Proofs.Code.Package
import ApiSnippets.Proofs.Text.Cut
/-!
# Names that are cased in two places

The classes that a body makes up for itself are in Pascal case from the start,
and languages put every class name in Pascal case again; the parts of packages
are in camel case from the start. Neither of them changes when it is cased once
more (`Package.className_of_isSettled`, `Package.camel_or_pascal_part`). This
rests on the laws of the casings, which hold of every name.
-/

namespace ApiSnippets

open Naming (pascal camel snake words isWordChar)

/-! ## Class names -/

namespace Body

open ApiSnippets.Language (namedType?)

variable {ix : Index} {r : ResolvedRequest} {t : TypeRef} {graph : BodyGraph}

theorem isSettled_enumType (s : Shape) (hint : String) : (enumType s hint).IsSettled := by
  unfold enumType
  cases s.typeName.filter (· ≠ "") with
  | none => exact isSettled_pascal hint none
  | some name => exact isSettled_ofName name

theorem isSettled_of_enumNode {s : Shape} {hint text : String} {n : BodyNode}
    (h : (enumNode ix s hint text).outcome = .ok n) : ∀ t ∈ namedType? n, t.IsSettled := by
  obtain ⟨⟨names, flags⟩, -, h⟩ := Noted.outcome_bind_eq_ok.1 h
  have hnode : ∃ kept, n = .enum (enumType s hint) kept flags := by
    simp only at h
    split at h
    · exact ⟨_, (Noted.outcome_pure_eq_ok.1 h).symm⟩
    · obtain ⟨-, -, h⟩ := Noted.outcome_bind_eq_ok.1 h
      exact ⟨_, (Noted.outcome_pure_eq_ok.1 h).symm⟩
    · exact ⟨_, (Noted.outcome_pure_eq_ok.1 h).symm⟩
  obtain ⟨kept, rfl⟩ := hnode
  intro t ht
  obtain rfl := Option.some.inj ht
  exact isSettled_enumType s hint

/-- Of the values without parts the members of enumerations name a type. -/
theorem isSettled_of_isLeaf {shape : Option Shape} {near : Option String} {hint : String}
    {v : Json} {n : BodyNode} (h : (value ix shape near hint v).outcome = .ok n)
    (hleaf : IsLeaf v n) : ∀ t ∈ namedType? n, t.IsSettled := by
  cases hleaf with
  | enum =>
    rw [value] at h
    have h := outcome_of_leafFault h
    unfold textNode at h
    split at h
    · cases Noted.outcome_pure_eq_ok.1 h
    split at h
    · exact isSettled_of_enumNode h
    split at h
    · cases Noted.outcome_pure_eq_ok.1 h
    split at h
    · cases Noted.outcome_pure_eq_ok.1 h
    · have hnode := Noted.outcome_pure_eq_ok.1 h
      split at hnode <;> cases hnode
  | _ => exact fun t ht => nomatch ht

/-- The types that shapes declare for elements are of the schema. -/
theorem isSettled_of_declaredItemType? {s : Shape} {item : ItemType}
    (h : declaredItemType? s = some (some item)) (ht : t ∈ item.typeRef?) : t.IsSettled := by
  have hnamed : ∀ {i : ItemType} {name : String}, some (some i) = some (some item) →
      i.typeRef? = some (TypeRef.ofName name) → t.IsSettled := by
    rintro i name h hi
    obtain rfl := Option.some.inj (Option.some.inj h)
    obtain rfl := Option.some.inj (hi.symm.trans ht)
    exact isSettled_ofName name
  have hplain : ∀ {i : ItemType}, some (some i) = some (some item) →
      i.typeRef? = none → t.IsSettled := by
    rintro i h hi
    obtain rfl := Option.some.inj (Option.some.inj h)
    cases hi.symm.trans ht
  -- shapes of objects and enums carry a name, which may be that of a primitive type
  unfold declaredItemType? at h
  split at h
  · cases h
  · split at h
    · exact hnamed h rfl
    · exact hplain h rfl
  · split at h
    · exact hnamed h rfl
    · exact hplain h rfl
  · split at h
    · exact hplain h rfl
    split at h
    · exact hplain h rfl
    split at h
    · exact hplain h rfl
    · exact hplain h rfl
  · exact hplain h rfl
  · exact hplain h rfl
  · exact hplain h rfl
  · cases Option.some.inj h

/-- The type of elements is one of the schema or that of an element. -/
theorem isSettled_itemType {shape : Option Shape} {elements : List BodyNode} {item : ItemType}
    (hall : ∀ e ∈ elements, ∀ t ∈ namedType? e, t.IsSettled)
    (hitem : itemType shape elements = some item) : ∀ t ∈ item.typeRef?, t.IsSettled := by
  intro t ht
  unfold itemType at hitem
  split at hitem
  · next declared hdeclared =>
    obtain ⟨s, -, hs⟩ := Option.bind_eq_some_iff.1 hdeclared
    rw [hitem] at hs
    exact isSettled_of_declaredItemType? hs ht
  · -- the first element that is not null decides, with its own type when it is an object
    obtain ⟨e, he, hitem⟩ := Option.bind_eq_some_iff.1 hitem
    refine hall e (List.mem_of_find?_eq_some he) t ?_
    cases e with
    | object u ms derived =>
      obtain rfl := Option.some.inj hitem
      exact ht
    | string _ | number _ _ | boolean _ | map _ =>
      obtain rfl := Option.some.inj hitem
      cases ht
    | _ => cases hitem

theorem nodeCases_isSettled (r : ResolvedRequest) :
    NodeCases r fun n => ∀ t ∈ namedType? n, t.IsSettled where
  leaf := isSettled_of_isLeaf
  stream _ t ht := nomatch ht
  array {shape elements} hall := by
    intro t ht
    cases hitem : itemType shape elements with
    | none =>
      rw [hitem] at ht
      cases ht
    | some item =>
      rw [hitem] at ht
      exact isSettled_itemType hall hitem t ht
  map _ t ht := nomatch ht
  object entries hf t ht := by
    obtain rfl := Option.some.inj ht
    exact hf.isSettled

/-- The types of a graph that is built. -/
theorem isSettled_of_build (h : (build r).outcome = .ok (some graph)) :
    ∀ t ∈ Language.typesOf graph.root, t.IsSettled := by
  intro t ht
  obtain ⟨n, hn, hnamed⟩ := List.mem_filterMap.1 ht
  exact (nodeCases_isSettled r).build h n hn t hnamed

/-- The class name of a graph that is built. -/
theorem pascal_typeName (h : (build r).outcome = .ok (some graph)) {name : String}
    (hname : graph.typeName = some name) : pascal name = name := by
  rcases root_of_build h with ⟨hnone, -⟩ | ⟨v, hv⟩
  · cases hnone.symm.trans hname
  · unfold ofJson at hv
    split at hv
    · obtain ⟨f, -, hv⟩ := Noted.outcome_bind_eq_ok.1 hv
      obtain ⟨placed, -, hv⟩ := Noted.outcome_bind_eq_ok.1 hv
      obtain rfl := Noted.outcome_pure_eq_ok.1 hv
      rw [← Option.some.inj hname, Naming.pascal_pascal]
    · obtain ⟨n, -, hv⟩ := Noted.outcome_bind_eq_ok.1 hv
      obtain rfl := Noted.outcome_pure_eq_ok.1 hv
      have helement : elementClass? n = some name := hname
      unfold elementClass? at helement
      split at helement
      · obtain ⟨t, -, rfl⟩ := Option.map_eq_some_iff.1 helement
        exact Naming.pascal_pascal t.shortName
      · cases helement

end Body

namespace Package

variable {t : TypeRef} {s : PathSegment} {part : String}

/-- **The class name of a synthesized type** is its name. -/
theorem className_of_isSettled (h : t.IsSettled) (ht : t.synthesized = true) :
    className t = t.name := by
  obtain ⟨-, hname⟩ := h ht
  have hundotted : '.' ∉ t.name.toList := by
    rw [← hname, pascal, String.toList_ofList]
    intro hmem
    exact absurd (Naming.isWordChar_of_mem_pascalChars hmem) (by decide)
  rw [className, TypeRef.shortName, Text.lastComponent_of_undotted hundotted, hname]

/-! ## Parts of packages -/

theorem letters_pascal (name : String) : ∀ c ∈ (pascal name).toList, isWordChar c = true := by
  rw [pascal, String.toList_ofList]
  exact fun _ => Naming.isWordChar_of_mem_pascalChars

/-- The part for an alternate key is in camel case, unless nothing of the
collection's name is in it. -/
theorem camel_or_pascal_alternate (collection key : String) :
    camel (Naming.alternateKeyAccessor collection key) =
        Naming.alternateKeyAccessor collection key ∨
      words collection = [] ∧
        Naming.alternateKeyAccessor collection key = "With" ++ pascal key ∧
        pascal ("With" ++ pascal key) = "With" ++ pascal key := by
  have hwith : pascal "With" = "With" := by decide +kernel
  by_cases hempty : camel collection = ""
  · refine .inr ⟨Naming.words_eq_nil_of_camel hempty, ?_, ?_⟩
    · rw [Naming.alternateKeyAccessor, hempty, String.empty_append]
    · exact Naming.pascal_append hwith (Naming.pascal_pascal key)
  · left
    have hletters : ∀ c ∈ ("With" ++ pascal key).toList, isWordChar c = true := by
      rw [String.toList_append]
      exact List.forall_mem_append.2 ⟨Text.forall_of_all (by decide), letters_pascal key⟩
    rw [Naming.alternateKeyAccessor, String.append_assoc]
    exact Naming.camel_append (Naming.camel_camel collection) hempty hletters

theorem camel_graph (name : String) : camel ("graph" ++ pascal name) = "graph" ++ pascal name := by
  have hgraph : camel "graph" = "graph" := by decide +kernel
  exact Naming.camel_append hgraph (by decide) (letters_pascal name)

/-- **The parts of packages are in camel case**, and so they are in camel case
again. The one exception is that of an alternate key whose collection has no
letters and digits in its name: it is in Pascal case. -/
theorem camel_or_pascal_part (h : part ∈ segmentParts s) :
    camel part = part ∨ ∃ collection key value, s.role = .alternate collection key value ∧
      words collection = [] ∧ part = "With" ++ pascal key ∧ pascal part = part := by
  have hfixed : camel "users" = "users" ∧ camel "item" = "item" ∧ camel "ref" = "ref" := by
    decide
  obtain ⟨husers, hitem, href⟩ := hfixed
  -- a part is that of the role, or that of the cast
  rcases List.mem_append.1 h with h | h
  · cases hrole : s.role with
    | literal name written =>
      rw [hrole, roleParts] at h
      split at h
      · rcases List.mem_cons.1 h with rfl | h
        · exact .inl husers
        · exact .inl (List.mem_singleton.1 h ▸ hitem)
      · exact .inl (List.mem_singleton.1 h ▸ Naming.camel_camel name)
    | alternate collection key value =>
      rw [hrole] at h
      obtain rfl := List.mem_singleton.1 h
      rcases camel_or_pascal_alternate collection key with hcamel | ⟨hwords, hpart, hpascal⟩
      · exact .inl hcamel
      · exact .inr ⟨collection, key, value, rfl, hwords, hpart, hpart.symm ▸ hpascal⟩
    | keyed _ _ | parameter _ =>
      rw [hrole] at h
      exact .inl (List.mem_singleton.1 h ▸ hitem)
    | action name _ | function name _ =>
      rw [hrole] at h
      exact .inl (List.mem_singleton.1 h ▸ Naming.camel_camel name)
    | reference =>
      rw [hrole] at h
      exact .inl (List.mem_singleton.1 h ▸ href)
  · obtain ⟨type, -, rfl⟩ := Option.map_eq_some_iff.1 (Option.mem_toList.1 h)
    exact .inl (camel_graph _)

end Package

namespace Naming

/-! ## Casing again -/

theorem join_words (name : String) :
    String.join (words name) = String.ofList (name.toList.filter isWordChar) := by
  have hchars : (words name).map String.toList = wordsOf name.toList := by
    simp [words, Function.comp_def]
  rw [← String.toList_inj, String.toList_join, List.flatMap_def, hchars, flatten_wordsOf,
    String.toList_ofList]

theorem ne_empty_of_mem_words {w name : String} (h : w ∈ words name) : w ≠ "" := by
  obtain ⟨v, hv, rfl⟩ := List.mem_map.1 h
  exact mt String.ofList_eq_empty_iff.1 (ne_nil_of_mem_wordsOf hv)

/-- **Names that have been cased stay as they are.** The words of a name are its
letters and digits, and none is empty. Casing a name twice in the same way is
casing it once, and of Pascal and camel case the later one counts. So the class
of a synthesized type has the name that the body gives it, and a part of a
package stays in camel case, or in Pascal case where it belongs to an alternate
key of a collection without letters and digits. -/
theorem casings_are_stable (name : String) :
    (String.join (words name) = String.ofList (name.toList.filter isWordChar) ∧
      ∀ w ∈ words name, w ≠ "") ∧
    (pascal (pascal name) = pascal name ∧ camel (camel name) = camel name ∧
      snake (snake name) = snake name) ∧
    (pascal (camel name) = pascal name ∧ camel (pascal name) = camel name) ∧
    (∀ r graph, (Body.build r).outcome = .ok (some graph) →
      (∀ t ∈ Language.typesOf graph.root, t.synthesized = true → Package.className t = t.name) ∧
      ∀ type, graph.typeName = some type → pascal type = type) ∧
    ∀ segments, ∀ part ∈ Package.parts segments, camel part = part ∨
      pascal part = part ∧ ∃ s ∈ segments, ∃ collection key value,
        s.role = .alternate collection key value ∧ words collection = [] ∧
        part = "With" ++ pascal key := by
  refine ⟨⟨join_words name, fun w => ne_empty_of_mem_words⟩,
    ⟨pascal_pascal name, camel_camel name, snake_snake name⟩,
    ⟨pascal_camel name, camel_pascal name⟩, fun r graph hbuild => ?_, ?_⟩
  · refine ⟨fun t ht hsynthesized => ?_, fun type => Body.pascal_typeName hbuild⟩
    exact Package.className_of_isSettled (Body.isSettled_of_build hbuild t ht) hsynthesized
  · intro segments part hpart
    obtain ⟨s, hs, hmem⟩ := List.mem_flatMap.1 hpart
    rcases Package.camel_or_pascal_part hmem with hcamel | ⟨collection, key, value, hrole, hwords,
      hname, hpascal⟩
    · exact .inl hcamel
    · exact .inr ⟨hpascal, s, hs, collection, key, value, hrole, hwords, hname⟩

/-- A request for an action with an empty object. -/
def emptyRequest : ResolvedRequest :=
  Body.inlineRequest (Utf8.encode "{}".toList)

/-- The type that is named after the action. -/
def emptyType : TypeRef :=
  { name := "SendPostRequestBody", synthesized := true }

/-- The graph of this body. -/
def emptyGraph : BodyGraph where
  root := .object emptyType [] false
  typeName := some emptyType.name

theorem outcome_build_empty : (Body.build emptyRequest).outcome = .ok (some emptyGraph) := by
  have hsent : Body.sentJson? emptyRequest = some (.obj []) := rfl
  rw [Body.outcome_build hsent]
  rfl

/-- An alternate key of a collection without letters and digits, and a type
cast. -/
def mailPath : List PathSegment :=
  [⟨.alternate "é" "mail" none, some "ns.part"⟩]

theorem casings_are_stable_empty :
    String.join (words "HTMLContent-é1") = "HTMLContent1" ∧
      pascal "HTMLContent1" = "HTMLContent1" ∧ camel "hTMLContent1" = "hTMLContent1" ∧
      snake "html_content_1" = "html_content_1" ∧
      (Body.build emptyRequest).outcome = .ok (some emptyGraph) ∧
      emptyType ∈ Language.typesOf emptyGraph.root ∧ emptyType.synthesized = true ∧
      Package.className emptyType = emptyType.name ∧
      Package.parts mailPath = ["WithMail", "graphPart"] ∧
      pascal "WithMail" = "WithMail" ∧ camel "graphPart" = "graphPart" := by
  have hcasings : pascal "HTMLContent-é1" = "HTMLContent1" ∧
      camel "HTMLContent-é1" = "hTMLContent1" ∧ snake "HTMLContent-é1" = "html_content_1" ∧
      String.ofList ("HTMLContent-é1".toList.filter isWordChar) = "HTMLContent1" := by
    decide
  have hpath : Package.parts mailPath = ["WithMail", "graphPart"] := by rfl
  have hother : camel "WithMail" ≠ "WithMail" ∧ pascal "graphPart" ≠ "graphPart" := by
    decide +kernel
  have hmember : emptyType ∈ Language.typesOf emptyGraph.root := by decide
  obtain ⟨⟨hjoin, -⟩, ⟨hpascal, hcamel, hsnake⟩, -, hbodies, hparts⟩ :=
    casings_are_stable "HTMLContent-é1"
  rw [hcasings.2.2.2] at hjoin
  rw [hcasings.1] at hpascal
  rw [hcasings.2.1] at hcamel
  rw [hcasings.2.2.1] at hsnake
  obtain ⟨hclass, -⟩ := hbodies emptyRequest emptyGraph outcome_build_empty
  have hmail := hparts mailPath "WithMail" (by simp [hpath])
  have hpart := hparts mailPath "graphPart" (by simp [hpath])
  refine ⟨hjoin, hpascal, hcamel, hsnake, outcome_build_empty, hmember, rfl,
    hclass emptyType hmember rfl, hpath, ?_, ?_⟩
  · exact (hmail.resolve_left hother.1).1
  · exact hpart.resolve_right fun hpascal => hother.2 hpascal.1

end Naming

end ApiSnippets
