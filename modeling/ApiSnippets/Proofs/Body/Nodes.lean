import ApiSnippets.Proofs.Body.Sites
/-!
# The nodes of a body

An induction over the graph that is built for a request. A node is a value
without parts, a stream, an array, a map or the object of a frame. What holds
of each of them when it is made, where it may be known to hold of the elements
of an array, holds of every node of the graph (`NodeCases.build`).
-/

namespace ApiSnippets

namespace BodyNode

variable {P : BodyNode → Prop} {n : BodyNode}

/-- That something holds of a node and of everything below it. -/
def All (P : BodyNode → Prop) (n : BodyNode) : Prop :=
  ∀ m ∈ n.walk, P m

theorem all_iff : n.All P ↔ P n ∧ ∀ c ∈ n.children, c.All P := by
  constructor
  · intro h
    exact ⟨h n n.mem_walk_self, fun c hc m hm => h m (mem_walk_iff.2 (.inr ⟨c, hc, hm⟩))⟩
  · rintro ⟨hn, hbelow⟩ m hm
    rcases mem_walk_iff.1 hm with rfl | ⟨c, hc, hm⟩
    · exact hn
    · exact hbelow c hc m hm

theorem All.self (h : n.All P) : P n :=
  (all_iff.1 h).1

end BodyNode

namespace Body

open BodyNode (all_iff)

variable {r : ResolvedRequest} {P : BodyNode → Prop} {f : Frame} {n : BodyNode} {v : Json}
  {members : List (String × Json)} {placed : List Placed} {g : BodyGraph}
  {shape : Option Shape} {near : Option String} {hint : String}

/-- That an object of a request is read in a frame. -/
inductive IsFrame (r : ResolvedRequest) (f : Frame) : Prop
  | planned {shape : Option Shape} {hint : String} {members : List (String × Json)} :
      (planObject r.index shape hint members).outcome = .ok (.frame f) → IsFrame r f
  | untyped {near : Option String} {members : List (String × Json)} :
      (planUntyped r.index near members).outcome = .ok (.frame f) → IsFrame r f
  | root {members : List (String × Json)} :
      (rootFrame r.index r members).outcome = .ok f → IsFrame r f

/-- The cases of an induction over the nodes of a body. -/
structure NodeCases (r : ResolvedRequest) (P : BodyNode → Prop) : Prop where
  leaf {shape : Option Shape} {near : Option String} {hint : String} {v : Json} {n : BodyNode} :
    (value r.index shape near hint v).outcome = .ok n → IsLeaf v n → P n
  stream (octets : Bytes) : P (.stream octets)
  array {shape : Option Shape} {elements : List BodyNode} :
    (∀ e ∈ elements, P e) → P (.array (itemType shape elements) elements)
  map (entries : List (String × BodyNode)) : P (.map entries)
  object {f : Frame} (entries : List (String × BodyNode)) :
    IsFrame r f → P (.object f.type entries f.derived)

theorem children_of_isLeaf (h : IsLeaf v n) : n.children = [] := by
  cases h <;> rfl

/-- The children of an object that was placed: what is placed for the members
that stay, and the map of the others. -/
theorem all_children_node (hmap : ∀ entries, P (.map entries)) (h : ∀ p ∈ placed, p.node.All P) :
    ∀ c ∈ (f.node placed).children, c.All P := by
  have hpick : ∀ additional, ∀ c ∈ (Placed.pick additional placed).map Prod.snd, c.All P := by
    intro additional c hc
    obtain ⟨e, he, rfl⟩ := List.mem_map.1 hc
    obtain ⟨p, hp, rfl⟩ := List.mem_map.1 he
    exact h p (List.mem_filter.1 hp).1
  intro c hc
  rw [Frame.node, BodyNode.children_object, arrange, List.map_append] at hc
  rcases List.mem_append.1 hc with hc | hc
  · exact hpick false c hc
  · split at hc
    · cases hc
    · obtain rfl := List.mem_singleton.1 hc
      exact all_iff.2 ⟨hmap _, hpick true⟩

namespace NodeCases

theorem all_leaf (h : NodeCases r P) (hn : (Body.value r.index shape near hint v).outcome = .ok n)
    (hleaf : IsLeaf v n) : n.All P := by
  refine all_iff.2 ⟨h.leaf hn hleaf, ?_⟩
  simp [children_of_isLeaf hleaf]

/-- A value that is neither an array nor an object is read as one without
parts. -/
theorem all_plain (h : NodeCases r P) (hn : (Body.value r.index shape near hint v).outcome = .ok n)
    (harr : ∀ items, v ≠ .arr items) (hobj : ∀ members, v ≠ .obj members) : n.All P := by
  cases mirrors_value v shape near hint n hn with
  | leaf hleaf => exact h.all_leaf hn hleaf
  | array _ => exact absurd rfl (harr _)
  | map _ _ => exact absurd rfl (hobj _)
  | object _ _ => exact absurd rfl (hobj _)

/-- What is placed for members, by what they are read as. -/
theorem all_placeAll (h : NodeCases r P)
    (hread : ∀ m ∈ members, ∀ shape near hint n,
      (Body.value r.index shape near hint m.2).outcome = .ok n → n.All P)
    (hplaced : (placeAll r.index f members).outcome = .ok placed) : ∀ p ∈ placed, p.node.All P := by
  intro p hp
  obtain ⟨m, hm, hplaces⟩ := Outcome.exists_of_forall₂ (forall₂_places members placed hplaced) hp
  have hmem : m ∈ members := (List.mem_filter.1 hm).1
  cases hplaces with
  | id hrole =>
    have htext : (Body.value r.index none none "" (.str m.2.asText)).outcome =
        .ok (.string m.2.asText) := by
      rw [Body.value]
      rfl
    exact h.all_leaf htext .string
  | bind hrole hn =>
    rw [← outcome_value_none _ _ m.1] at hn
    exact hread m hmem _ _ _ _ hn
  | declared hrole hprop hn => exact hread m hmem _ _ _ _ hn
  | undeclared hrole hprop hn =>
    rw [← outcome_value_none _ _ m.1] at hn
    exact hread m hmem _ _ _ _ hn

/-- **Every node that a value is read as.** -/
theorem value (h : NodeCases r P) (v : Json) (shape : Option Shape) (near : Option String)
    (hint : String) (n : BodyNode) (hn : (Body.value r.index shape near hint v).outcome = .ok n) :
    n.All P := by
  -- `hv` is what termination rests on: the parts named below are smaller than the value
  cases hv : v with
  | null | bool _ | int _ | num _ | str _ => exact h.all_plain hn (by simp [hv]) (by simp [hv])
  | arr items =>
    rw [hv, Body.value] at hn
    split at hn
    · simp at hn
    · obtain ⟨elements, helements, hn⟩ := Noted.outcome_bind_eq_ok.1 hn
      obtain rfl := Noted.outcome_pure_eq_ok.1 hn
      have hall : ∀ e ∈ elements, e.All P := by
        intro e he
        obtain ⟨item, hitem, hread⟩ :=
          Outcome.exists_of_forall₂ (Site.forall₂_valueAll items elements helements) he
        exact h.value item _ _ _ e hread
      exact all_iff.2 ⟨h.array fun e he => (hall e he).self, hall⟩
  | obj members =>
    have hread : ∀ m ∈ members, ∀ shape near hint n,
        (Body.value r.index shape near hint m.2).outcome = .ok n → n.All P :=
      fun m hm => h.value m.2
    have hframe : ∀ {f : Frame}, IsFrame r f →
        (f.node <$> placeAll r.index f members).outcome = .ok n → n.All P := by
      intro f hf hn
      obtain ⟨placed, hplaced, rfl⟩ := Noted.outcome_map_eq_ok.1 hn
      exact all_iff.2 ⟨h.object _ hf, all_children_node h.map (h.all_placeAll hread hplaced)⟩
    rw [hv, Body.value] at hn
    obtain ⟨plan, hplan, hn⟩ := Noted.outcome_bind_eq_ok.1 hn
    split at hn
    · simp at hn
    · exact hframe (.planned hplan) hn
    · -- a shape that says nothing about objects leaves the value untyped
      obtain ⟨plan, hplan, hn⟩ := Noted.outcome_bind_eq_ok.1 hn
      split at hn
      · exact hframe (.untyped hplan) hn
      · obtain ⟨entries, hentries, rfl⟩ := Noted.outcome_map_eq_ok.1 hn
        refine all_iff.2 ⟨h.map entries, fun c hc => ?_⟩
        obtain ⟨e, he, rfl⟩ := List.mem_map.1 hc
        obtain ⟨m, hm, hn⟩ :=
          Outcome.exists_of_forall₂ (Site.forall₂_untypedMembers members entries hentries) he
        rw [← outcome_value_none _ _ m.1] at hn
        exact hread m hm _ _ _ _ hn
termination_by sizeOf v
decreasing_by
  · exact hv ▸ Json.sizeOf_lt_of_mem_arr hitem
  · exact hv ▸ Json.sizeOf_lt_of_mem_obj hm

end NodeCases

/-! ## Bodies of requests -/

/-- What is built is a stream or the graph of a value. -/
theorem root_of_build (h : (build r).outcome = .ok (some g)) :
    g.typeName = none ∧ (∃ octets, g.root = .stream octets) ∨
      ∃ v, (ofJson r.index r v).outcome = .ok g := by
  unfold build at h
  split at h
  · cases h
  · simp only at h
    split at h
    · obtain rfl := Option.some.inj (Noted.outcome_pure_eq_ok.1 h)
      exact .inl ⟨rfl, _, rfl⟩
    · obtain ⟨found, -, h⟩ := Noted.outcome_bind_eq_ok.1 h
      split at h
      · split at h
        · obtain ⟨g', hg, hsome⟩ := Noted.outcome_map_eq_ok.1 h
          obtain rfl := Option.some.inj hsome
          exact .inr ⟨_, hg⟩
        · obtain rfl := Option.some.inj (Noted.outcome_pure_eq_ok.1 h)
          exact .inl ⟨rfl, _, rfl⟩
      · simp at h
      · obtain rfl := Option.some.inj (Noted.outcome_pure_eq_ok.1 h)
        exact .inl ⟨rfl, _, rfl⟩

/-- **Every node of a graph that is built.** -/
theorem NodeCases.build (h : NodeCases r P) (hg : (Body.build r).outcome = .ok (some g)) :
    g.root.All P := by
  rcases root_of_build hg with ⟨-, octets, hroot⟩ | ⟨v, hv⟩
  · rw [hroot]
    exact all_iff.2 ⟨h.stream octets, by simp [BodyNode.children]⟩
  · unfold ofJson at hv
    split at hv
    · obtain ⟨f, hf, hv⟩ := Noted.outcome_bind_eq_ok.1 hv
      obtain ⟨placed, hplaced, hv⟩ := Noted.outcome_bind_eq_ok.1 hv
      obtain rfl := Noted.outcome_pure_eq_ok.1 hv
      have hchildren := h.all_placeAll (fun m _ => h.value m.2) hplaced
      exact all_iff.2 ⟨h.object _ (.root hf), all_children_node h.map hchildren⟩
    · obtain ⟨n, hn, hv⟩ := Noted.outcome_bind_eq_ok.1 hv
      obtain rfl := Noted.outcome_pure_eq_ok.1 hv
      exact h.value _ _ _ _ n hn

end Body

end ApiSnippets
