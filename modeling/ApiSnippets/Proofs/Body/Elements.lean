import ApiSnippets.Proofs.Body.InlineObjects
import ApiSnippets.Proofs.Json
/-!
# Types of elements

An array whose elements have no declared shape is typed by what stands in it.
The type is that of the first element that is not null, and the elements behind
it are not looked at: it fits all of them where they are like the first, and
where one is not, the array is still of the first one's type
(`elements_follow_first`).
-/

namespace ApiSnippets

/-- That a node is of the kind of a type, and a number of the type's width and
class. -/
inductive ItemType.Fits : ItemType → BodyNode → Prop
  | string {v : String} : Fits .string (.string v)
  | number {q : Numeral} {t : NumberType} : Fits (.number t) (.number q t)
  | boolean {b : Bool} : Fits .boolean (.boolean b)
  | guid {v : String} : Fits .guid (.guid v)
  | datetime {v : String} {t : Temporal} : Fits .datetime (.datetime v t)
  | binary {v : String} : Fits .binary (.binary v)
  | enum {t u : TypeRef} {members : List String} {flags : Bool} :
      Fits (.enum t) (.enum u members flags)
  | object {t u : TypeRef} {members : List (String × BodyNode)} {derived : Bool} :
      Fits (.object t) (.object u members derived)
  | map {members : List (String × BodyNode)} : Fits .map (.map members)

namespace Body

open BodyNode (null)

variable {r : ResolvedRequest} {body : Json} {s : Site} {items : List Json} {e first : BodyNode}
  {before after elements : List BodyNode} {t : ItemType} {shape : Option Shape}

/-- That two nodes are of one kind, and numbers of one width and class: some
type fits both. -/
def Alike (m n : BodyNode) : Prop :=
  ∃ t : ItemType, t.Fits m ∧ t.Fits n

/-! ## The type of an element -/

theorem fits_of_itemTypeOf? (h : itemTypeOf? e = some t) : t.Fits e := by
  cases e with
  | string _ | number _ _ | boolean _ | object _ _ _ | map _ =>
    obtain rfl := Option.some.inj h
    constructor
  | guid _ | datetime _ _ | binary _ | stream _ | enum _ _ _ | null | array _ _ => cases h

/-- What fits an element fits those that are like it. -/
theorem fits_iff_alike (h : itemTypeOf? first = some t) : t.Fits e ↔ Alike first e := by
  constructor
  · intro hfits
    exact ⟨t, fits_of_itemTypeOf? h, hfits⟩
  · rintro ⟨u, hfirst, hfits⟩
    cases hfirst with
    | string | number | boolean | object | map =>
      obtain rfl := Option.some.inj h
      cases hfits
      constructor
    | guid | datetime | binary | enum => cases h

/-! ## The type of an array -/

theorem isNull_iff : isNull e = true ↔ e = .null := by
  cases e <;> simp [isNull]

/-- The first element that is not null. -/
theorem find?_of_nulls (hbefore : ∀ e ∈ before, e = .null) (hfirst : first ≠ .null) :
    (before ++ first :: after).find? (fun e => !isNull e) = some first := by
  refine List.find?_eq_some_iff_append.2 ⟨?_, before, after, rfl, ?_⟩
  · rw [Bool.not_eq_true', ← Bool.not_eq_true, isNull_iff]
    exact hfirst
  · intro e he
    simpa [isNull_iff] using hbefore e he

/-- The type of elements without a declared shape. -/
theorem itemType_of_silent (h : shape.bind declaredItemType? = none) :
    itemType shape elements = (elements.find? fun e => !isNull e).bind itemTypeOf? := by
  rw [itemType, h]

/-- **The array at a site** of a body that is built. -/
theorem exists_array_of_build {g : BodyGraph} (hsent : sentJson? r = some body)
    (hbuild : (build r).outcome = .ok (some g)) (hs : Site.Reached r body s)
    (hvalue : s.value = .arr items) :
    ∃ elements,
      g.root.descendant? s.path = some (.array (itemType (itemShape s.shape) elements) elements) ∧
      elements.length = items.length := by
  obtain ⟨n, hn, hnode⟩ := exists_node_of_build hsent hs hbuild
  have hname : s.shape.bind Shape.objectName? = none := by
    cases hname : s.shape.bind Shape.objectName? with
    | none => rfl
    | some name =>
      have hobj : ∀ members, s.value ≠ .obj members := by simp [hvalue]
      rw [Site.node_of_ne_obj hobj, hvalue, value, hname] at hnode
      cases hnode
  rw [Site.outcome_node_arr hvalue hname] at hnode
  obtain ⟨elements, helements, rfl⟩ := Outcome.map_eq_ok.1 hnode
  exact ⟨elements, hn, (Site.forall₂_valueAll items elements helements).length_eq.symm⟩

/-- **Elements follow the first one.** In a body that is built, an array whose
elements have no declared shape has no type when all of them are null, and else
the type of the first that is not, if that is of a kind with a type. The type
fits all elements exactly when those behind the first are null or like it, and
nothing but the first one decides whether there is a type. -/
theorem elements_follow_first {g : BodyGraph} (hsent : sentJson? r = some body)
    (hbuild : (build r).outcome = .ok (some g)) (hs : Site.Reached r body s)
    (hvalue : s.value = .arr items)
    (hsilent : (itemShape s.shape).bind declaredItemType? = none) :
    ∃ item elements, g.root.descendant? s.path = some (.array item elements) ∧
      elements.length = items.length ∧
      ((∀ e ∈ elements, e = .null) → item = none) ∧
      ∀ before first after, elements = before ++ first :: after →
        (∀ e ∈ before, e = .null) → first ≠ .null →
        item = itemTypeOf? first ∧
        ∀ t, item = some t →
          ((∀ e ∈ elements, e ≠ .null → t.Fits e) ↔ ∀ e ∈ after, e ≠ .null → Alike first e) := by
  obtain ⟨elements, hn, hlength⟩ := exists_array_of_build hsent hbuild hs hvalue
  rw [itemType_of_silent hsilent] at hn
  refine ⟨_, elements, hn, hlength, ?_, ?_⟩
  · intro hnulls
    have hnone : (elements.find? fun e => !isNull e) = none := by
      refine List.find?_eq_none.2 fun e he => ?_
      simpa [isNull_iff] using hnulls e he
    rw [hnone, Option.bind_none]
  · rintro before first after rfl hbefore hfirst
    rw [find?_of_nulls hbefore hfirst, Option.bind_some]
    refine ⟨rfl, fun t ht => ?_⟩
    constructor
    · intro hall e he hne
      exact (fits_iff_alike ht).1 (hall e (by simp [he]) hne)
    · intro hafter e he hne
      rcases List.mem_append.1 he with he | he
      · exact absurd (hbefore e he) hne
      rcases List.mem_cons.1 he with rfl | he
      · exact fits_of_itemTypeOf? ht
      · exact (fits_iff_alike ht).2 (hafter e he hne)

/-- A truth value and a text, one after the other. -/
def mixedItems : List Json :=
  [.bool true, .str "a"]

/-- The text of a body with these elements. -/
def mixedText : List Char :=
  "[\n  true,\n  \"a\"\n]".toList

/-- A request with this body. -/
def mixedRequest : ResolvedRequest :=
  inlineRequest (Utf8.encode mixedText)

/-- The graph of this body: an array of truth values with a text in it. -/
def mixedGraph : BodyGraph where
  root := .array (some .boolean) [.boolean true, .string "a"]

theorem sentJson?_mixed : sentJson? mixedRequest = some (.arr mixedItems) := by
  have hexact : Json.IsExact (.arr mixedItems) := by
    refine .arr fun v hv => ?_
    rcases List.mem_cons.1 hv with rfl | hv
    · exact .bool true
    · exact List.mem_singleton.1 hv ▸ .str "a"
  have hread : Json.read (String.ofList mixedText) = .ok (.arr mixedItems) :=
    Json.read_writeAt Json.readable_indented hexact 0 Json.Reader.isGap_nil
  exact sentJson?_of_read rfl rfl rfl hread

theorem outcome_build_mixed : (build mixedRequest).outcome = .ok (some mixedGraph) := by
  rw [outcome_build sentJson?_mixed]
  rfl

/-- The array has the type of the truth value in front, which does not fit the
text behind it. -/
theorem elements_follow_first_mixed :
    mixedGraph.root.descendant? [] =
      some (.array (some .boolean) [.boolean true, .string "a"]) ∧
      ¬ ∀ e ∈ [BodyNode.boolean true, .string "a"], e ≠ .null → ItemType.boolean.Fits e := by
  obtain ⟨item, elements, hnode, -, -, hfirst⟩ :=
    elements_follow_first sentJson?_mixed outcome_build_mixed .refl rfl rfl
  obtain ⟨rfl, rfl⟩ := BodyNode.array.inj (Option.some.inj hnode)
  obtain ⟨-, hfits⟩ := hfirst [] (.boolean true) [.string "a"] rfl (by simp) (by simp)
  refine ⟨hnode, fun hall => ?_⟩
  obtain ⟨t, htrue, htext⟩ :=
    (hfits .boolean rfl).1 hall (.string "a") (List.mem_singleton_self _) (by simp)
  cases htrue
  cases htext

end Body

end ApiSnippets
