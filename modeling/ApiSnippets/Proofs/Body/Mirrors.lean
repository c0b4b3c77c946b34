import Mathlib.Data.List.Permutation
import ApiSnippets.Proofs.Body.Objects
/-!
# Members are kept

No member of a JSON object is lost, doubled or moved on its way into the body
graph: the walk over the values arranges the members of every object as
`ObjectOf` says, and keeps the parts of arrays and maps one by one, at every
depth (`Mirrors`). For one object this is `object_keeps_members`, for a whole
body `mirrors_ofJson`.
-/

namespace ApiSnippets

namespace Body

open Annotated (typeMember)

/-! ## Nodes that keep their values -/

/-- A value without parts and a node that holds it. -/
inductive IsLeaf : Json → BodyNode → Prop
  | null : IsLeaf .null .null
  | bool {b : Bool} : IsLeaf (.bool b) (.boolean b)
  | int {n : Int} {t : NumberType} : IsLeaf (.int n) (.number (.int n) t)
  | num {x : Float} {t : NumberType} : IsLeaf (.num x) (.number (.num x) t)
  | string {s : String} : IsLeaf (.str s) (.string s)
  | guid {s : String} : IsLeaf (.str s) (.guid s)
  | datetime {s : String} {t : Temporal} : IsLeaf (.str s) (.datetime s t)
  | binary {s : String} : IsLeaf (.str s) (.binary s)
  | enum {s : String} {t : TypeRef} {ms : List String} {flags : Bool} :
      IsLeaf (.str s) (.enum t ms flags)

/-- **A node that keeps everything of a value**, at every depth: arrays and
maps have one child for each element and each member, in the same order, and
objects, which some frame has made, have what `ObjectOf` says. -/
inductive Mirrors (ix : Index) : Json → BodyNode → Prop
  | leaf {v : Json} {n : BodyNode} : IsLeaf v n → Mirrors ix v n
  | array {items : List Json} {elements : List BodyNode} {t : Option ItemType} :
      List.Forall₂ (Mirrors ix) items elements → Mirrors ix (.arr items) (.array t elements)
  | map {members : List (String × Json)} {entries : List (String × BodyNode)} :
      entries.map Prod.fst = members.map Prod.fst →
      List.Forall₂ (Mirrors ix) (members.map Prod.snd) (entries.map Prod.snd) →
      Mirrors ix (.obj members) (.map entries)
  | object {f : Frame} {members : List (String × Json)} {n : BodyNode} :
      Noted.outcome (object ix f members) = .ok n → ObjectOf (Mirrors ix) ix n f members →
      Mirrors ix (.obj members) n

variable {R : Json → BodyNode → Prop} {ix : Index} {f g : Frame}
  {members : List (String × Json)} {placed : List Placed}

/-! ## Values without parts -/

theorem isLeaf_enumNode {s : Shape} {hint text : String} {n : BodyNode}
    (h : Noted.outcome (enumNode ix s hint text) = .ok n) : IsLeaf (.str text) n := by
  obtain ⟨⟨names, flags⟩, -, h⟩ := Noted.outcome_bind_eq_ok.1 h
  simp only at h
  split at h
  · obtain rfl := Noted.outcome_pure_eq_ok.1 h
    exact .enum
  · obtain ⟨-, -, h⟩ := Noted.outcome_bind_eq_ok.1 h
    obtain rfl := Noted.outcome_pure_eq_ok.1 h
    exact .enum
  · obtain rfl := Noted.outcome_pure_eq_ok.1 h
    exact .enum

theorem isLeaf_textNode {shape : Option Shape} {hint text : String} {n : BodyNode}
    (h : Noted.outcome (textNode ix shape hint text) = .ok n) : IsLeaf (.str text) n := by
  unfold textNode at h
  split at h
  · obtain rfl := Noted.outcome_pure_eq_ok.1 h
    exact .string
  split at h
  · exact isLeaf_enumNode h
  split at h
  · obtain rfl := Noted.outcome_pure_eq_ok.1 h
    exact .guid
  split at h
  · obtain rfl := Noted.outcome_pure_eq_ok.1 h
    exact .datetime
  · obtain rfl := Noted.outcome_pure_eq_ok.1 h
    split
    · exact .binary
    · exact .string

/-- A value that may be at fault is a node when it is not. -/
theorem outcome_of_leafFault {fault : Option ShapeFault} {m : Noted BodyNode} {n : BodyNode}
    (h : Noted.outcome (match fault with
      | some cause => Noted.ofOutcome (.error (.shape cause))
      | none => m) = .ok n) : Noted.outcome m = .ok n := by
  split at h
  · simp at h
  · exact h

/-! ## The walk -/

/-- What one member is placed as, by its role. -/
inductive Places (ix : Index) (f : Frame) (name : String) (v : Json) : Placed → Prop
  | id : Annotated.roleOf name = .id → Places ix f name v ⟨name, .string v.asText, false⟩
  | bind {n : BodyNode} : Annotated.roleOf name = .bind →
      Noted.outcome (untyped ix f.near v) = .ok n → Places ix f name v ⟨name, n, true⟩
  | declared {n : BodyNode} {declared : String} {shape : Shape} :
      Annotated.roleOf name = .member → f.property? name = some (declared, shape) →
      Noted.outcome (value ix (some shape) f.near declared v) = .ok n →
      Places ix f name v ⟨declared, n, false⟩
  | undeclared {n : BodyNode} : Annotated.roleOf name = .member → f.property? name = none →
      Noted.outcome (untyped ix f.near v) = .ok n → Places ix f name v ⟨name, n, f.known⟩

theorem placeAll_cons {name : String} {v : Json} {ms : List (String × Json)}
    (hname : name ≠ typeMember) (h : Noted.outcome (placeAll ix f ((name, v) :: ms)) = .ok placed) :
    ∃ p rest, Places ix f name v p ∧ Noted.outcome (placeAll ix f ms) = .ok rest ∧
      placed = p :: rest := by
  -- every role ends in the same steps
  have hrest : ∀ {p : Placed}, Noted.outcome (do
      let rest ← placeAll ix f ms
      pure (p :: rest)) = .ok placed →
      ∃ rest, Noted.outcome (placeAll ix f ms) = .ok rest ∧ placed = p :: rest := by
    intro p h
    obtain ⟨rest, hrest, h⟩ := Noted.outcome_bind_eq_ok.1 h
    exact ⟨rest, hrest, (Noted.outcome_pure_eq_ok.1 h).symm⟩
  rw [placeAll, if_neg hname] at h
  simp only at h
  split at h
  · next hrole =>
    obtain ⟨_, hp, h⟩ := Noted.outcome_bind_eq_ok.1 h
    obtain rfl := Noted.outcome_pure_eq_ok.1 hp
    obtain ⟨rest, hms, rfl⟩ := hrest h
    exact ⟨_, rest, .id hrole, hms, rfl⟩
  · next hrole =>
    obtain ⟨n, hn, h⟩ := Noted.outcome_bind_eq_ok.1 h
    obtain ⟨_, hp, h⟩ := Noted.outcome_bind_eq_ok.1 h
    obtain rfl := Noted.outcome_pure_eq_ok.1 hp
    obtain ⟨rest, hms, rfl⟩ := hrest h
    exact ⟨_, rest, .bind hrole hn, hms, rfl⟩
  · next hrole =>
    split at h
    · next declared shape hprop =>
      obtain ⟨n, hn, h⟩ := Noted.outcome_bind_eq_ok.1 h
      obtain ⟨_, hp, h⟩ := Noted.outcome_bind_eq_ok.1 h
      obtain rfl := Noted.outcome_pure_eq_ok.1 hp
      obtain ⟨rest, hms, rfl⟩ := hrest h
      exact ⟨_, rest, .declared hrole hprop hn, hms, rfl⟩
    · next hprop =>
      obtain ⟨n, hn, h⟩ := Noted.outcome_bind_eq_ok.1 h
      obtain ⟨_, hp, h⟩ := Noted.outcome_bind_eq_ok.1 h
      obtain rfl := Noted.outcome_pure_eq_ok.1 hp
      obtain ⟨rest, hms, rfl⟩ := hrest h
      exact ⟨_, rest, .undeclared hrole hprop hn, hms, rfl⟩

/-- What is placed for a member is in its place, when nodes keep what their
values have. -/
theorem isPlaced_of_places {name : String} {v : Json} {p : Placed} (h : Places ix f name v p)
    (huntyped : ∀ near n, Noted.outcome (untyped ix near v) = .ok n → R v n)
    (hvalue : ∀ shape near hint n, Noted.outcome (value ix shape near hint v) = .ok n → R v n)
    (htext : ∀ s, R (.str s) (.string s)) : IsPlaced R f (name, v) p := by
  have hread : Annotated.roleOf name ≠ .id → readAs (name, v) = v := by
    intro hrole
    unfold readAs
    rw [if_neg (mt roleOf_eq_id.2 hrole)]
  cases h with
  | id hrole =>
    refine ⟨by simp [Frame.entryName, hrole], by simp [Frame.stays, hrole], ?_⟩
    unfold readAs
    rw [if_pos (roleOf_eq_id.1 hrole)]
    exact htext _
  | bind hrole hn =>
    refine ⟨by simp [Frame.entryName, hrole], by simp [Frame.stays, hrole], ?_⟩
    rw [hread (by simp [hrole])]
    exact huntyped _ _ hn
  | declared hrole hprop hn =>
    have hspelling := spelling?_eq f name
    rw [hprop, Option.map_some] at hspelling
    refine ⟨by simp [Frame.entryName, hrole, hspelling],
      by simp [Frame.stays, hrole, hspelling], ?_⟩
    rw [hread (by simp [hrole])]
    exact hvalue _ _ _ _ hn
  | undeclared hrole hprop hn =>
    have hspelling := spelling?_eq f name
    rw [hprop, Option.map_none] at hspelling
    refine ⟨by simp [Frame.entryName, hrole, hspelling],
      by simp [Frame.stays, hrole, hspelling], ?_⟩
    rw [hread (by simp [hrole])]
    exact huntyped _ _ hn

/-- The object of a frame keeps its members when what is placed does. -/
theorem mirrors_of_refine (hg : Noted.outcome (Frame.refine ix f members) = .ok g)
    (hplaced : Noted.outcome (placeAll ix g members) = .ok placed)
    (h : List.Forall₂ (IsPlaced (Mirrors ix) g) (members.filter fun m => m.1 != typeMember)
      placed) :
    Mirrors ix (.obj members) (g.node placed) := by
  have hobject : Noted.outcome (object ix f members) = .ok (g.node placed) :=
    Noted.outcome_bind_eq_ok.2 ⟨g, hg, Noted.outcome_map_eq_ok.2 ⟨placed, hplaced, rfl⟩⟩
  obtain ⟨t, hown, rfl⟩ := exists_ownType_of_refine hg
  exact .object hobject (objectOf_of_placed hown h)

mutual

theorem mirrors_untyped : ∀ (v : Json) (near : Option String) (n : BodyNode),
    Noted.outcome (untyped ix near v) = .ok n → Mirrors ix v n
  | .null, near, n, h => by
    rw [untyped] at h
    obtain rfl := Noted.outcome_pure_eq_ok.1 h
    exact .leaf .null
  | .bool b, near, n, h => by
    rw [untyped] at h
    obtain rfl := Noted.outcome_pure_eq_ok.1 h
    exact .leaf .bool
  | .int i, near, n, h => by
    rw [untyped] at h
    obtain rfl := Noted.outcome_pure_eq_ok.1 h
    exact .leaf .int
  | .num x, near, n, h => by
    rw [untyped] at h
    obtain rfl := Noted.outcome_pure_eq_ok.1 h
    exact .leaf .num
  | .str s, near, n, h => by
    rw [untyped] at h
    obtain rfl := Noted.outcome_pure_eq_ok.1 h
    exact .leaf .string
  | .arr items, near, n, h => by
    rw [untyped] at h
    obtain ⟨elements, helements, h⟩ := Noted.outcome_bind_eq_ok.1 h
    obtain rfl := Noted.outcome_pure_eq_ok.1 h
    exact .array (mirrors_untypedAll items near elements helements)
  | .obj members, near, n, h => by
    rw [untyped] at h
    obtain ⟨plan, hplan, h⟩ := Noted.outcome_bind_eq_ok.1 h
    split at h
    -- an object that names a type for itself is read by that type
    · next g =>
      obtain ⟨f, hg⟩ := exists_refine_of_planUntyped hplan
      obtain ⟨placed, hplaced, rfl⟩ := Noted.outcome_map_eq_ok.1 h
      exact mirrors_of_refine hg hplaced (isPlaced_placeAll members g placed hplaced)
    · obtain ⟨entries, hentries, rfl⟩ := Noted.outcome_map_eq_ok.1 h
      obtain ⟨hnames, hnodes⟩ := mirrors_untypedMembers members near entries hentries
      exact .map hnames hnodes

theorem mirrors_untypedAll : ∀ (vs : List Json) (near : Option String) (ns : List BodyNode),
    Noted.outcome (untypedAll ix near vs) = .ok ns → List.Forall₂ (Mirrors ix) vs ns
  | [], near, ns, h => by
    rw [untypedAll] at h
    obtain rfl := Noted.outcome_pure_eq_ok.1 h
    exact .nil
  | v :: vs, near, ns, h => by
    rw [untypedAll] at h
    obtain ⟨n, hn, h⟩ := Noted.outcome_bind_eq_ok.1 h
    obtain ⟨ns', hns, h⟩ := Noted.outcome_bind_eq_ok.1 h
    obtain rfl := Noted.outcome_pure_eq_ok.1 h
    exact .cons (mirrors_untyped v near n hn) (mirrors_untypedAll vs near ns' hns)

theorem mirrors_untypedMembers : ∀ (ms : List (String × Json)) (near : Option String)
    (es : List (String × BodyNode)), Noted.outcome (untypedMembers ix near ms) = .ok es →
      es.map Prod.fst = ms.map Prod.fst ∧
        List.Forall₂ (Mirrors ix) (ms.map Prod.snd) (es.map Prod.snd)
  | [], near, es, h => by
    rw [untypedMembers] at h
    obtain rfl := Noted.outcome_pure_eq_ok.1 h
    exact ⟨rfl, .nil⟩
  | (name, v) :: ms, near, es, h => by
    rw [untypedMembers] at h
    obtain ⟨n, hn, h⟩ := Noted.outcome_bind_eq_ok.1 h
    obtain ⟨es', hes, h⟩ := Noted.outcome_bind_eq_ok.1 h
    obtain rfl := Noted.outcome_pure_eq_ok.1 h
    obtain ⟨hnames, hnodes⟩ := mirrors_untypedMembers ms near es' hes
    exact ⟨by simp [hnames], .cons (mirrors_untyped v near n hn) hnodes⟩

theorem mirrors_value : ∀ (v : Json) (shape : Option Shape) (near : Option String)
    (hint : String) (n : BodyNode),
    Noted.outcome (value ix shape near hint v) = .ok n → Mirrors ix v n
  | .null, shape, near, hint, n, h => by
    rw [value] at h
    obtain rfl := Noted.outcome_pure_eq_ok.1 h
    exact .leaf .null
  | .bool b, shape, near, hint, n, h => by
    rw [value] at h
    obtain rfl := Noted.outcome_pure_eq_ok.1 (outcome_of_leafFault h)
    exact .leaf .bool
  | .int i, shape, near, hint, n, h => by
    rw [value] at h
    obtain rfl := Noted.outcome_pure_eq_ok.1 (outcome_of_leafFault h)
    exact .leaf .int
  | .num x, shape, near, hint, n, h => by
    rw [value] at h
    obtain rfl := Noted.outcome_pure_eq_ok.1 (outcome_of_leafFault h)
    exact .leaf .num
  | .str s, shape, near, hint, n, h => by
    rw [value] at h
    exact .leaf (isLeaf_textNode (outcome_of_leafFault h))
  | .arr items, shape, near, hint, n, h => by
    rw [value] at h
    split at h
    · simp at h
    · obtain ⟨elements, helements, h⟩ := Noted.outcome_bind_eq_ok.1 h
      obtain rfl := Noted.outcome_pure_eq_ok.1 h
      exact .array (mirrors_valueAll items _ near _ elements helements)
  | .obj members, shape, near, hint, n, h => by
    rw [value] at h
    obtain ⟨plan, hplan, h⟩ := Noted.outcome_bind_eq_ok.1 h
    split at h
    · simp at h
    · next g =>
      obtain ⟨f, hg⟩ := exists_refine_of_planObject hplan
      obtain ⟨placed, hplaced, rfl⟩ := Noted.outcome_map_eq_ok.1 h
      exact mirrors_of_refine hg hplaced (isPlaced_placeAll members g placed hplaced)
    · -- a shape that says nothing about objects leaves the value untyped
      obtain ⟨plan, hplan, h⟩ := Noted.outcome_bind_eq_ok.1 h
      split at h
      · next g =>
        obtain ⟨f, hg⟩ := exists_refine_of_planUntyped hplan
        obtain ⟨placed, hplaced, rfl⟩ := Noted.outcome_map_eq_ok.1 h
        exact mirrors_of_refine hg hplaced (isPlaced_placeAll members g placed hplaced)
      · obtain ⟨entries, hentries, rfl⟩ := Noted.outcome_map_eq_ok.1 h
        obtain ⟨hnames, hnodes⟩ := mirrors_untypedMembers members near entries hentries
        exact .map hnames hnodes

theorem mirrors_valueAll : ∀ (vs : List Json) (shape : Option Shape) (near : Option String)
    (hint : String) (ns : List BodyNode),
    Noted.outcome (valueAll ix shape near hint vs) = .ok ns → List.Forall₂ (Mirrors ix) vs ns
  | [], shape, near, hint, ns, h => by
    rw [valueAll] at h
    obtain rfl := Noted.outcome_pure_eq_ok.1 h
    exact .nil
  | v :: vs, shape, near, hint, ns, h => by
    rw [valueAll] at h
    obtain ⟨n, hn, h⟩ := Noted.outcome_bind_eq_ok.1 h
    obtain ⟨ns', hns, h⟩ := Noted.outcome_bind_eq_ok.1 h
    obtain rfl := Noted.outcome_pure_eq_ok.1 h
    exact .cons (mirrors_value v shape near hint n hn) (mirrors_valueAll vs shape near hint ns' hns)

theorem isPlaced_placeAll : ∀ (ms : List (String × Json)) (f : Frame) (placed : List Placed),
    Noted.outcome (placeAll ix f ms) = .ok placed →
      List.Forall₂ (IsPlaced (Mirrors ix) f) (ms.filter fun m => m.1 != typeMember) placed
  | [], f, placed, h => by
    rw [placeAll] at h
    obtain rfl := Noted.outcome_pure_eq_ok.1 h
    exact .nil
  | (name, v) :: ms, f, placed, h => by
    by_cases htype : name = typeMember
    · rw [placeAll, if_pos htype] at h
      rw [List.filter_cons_of_neg (by simp [htype])]
      exact isPlaced_placeAll ms f placed h
    · obtain ⟨p, rest, hp, hrest, rfl⟩ := placeAll_cons htype h
      rw [List.filter_cons_of_pos (by simpa using htype)]
      refine .cons ?_ (isPlaced_placeAll ms f rest hrest)
      exact isPlaced_of_places hp (mirrors_untyped v) (mirrors_value v) fun _ => .leaf .string

end

/-- **No member is lost, doubled or moved.** The members of an object, but for
the one that names its type, stay with it or are its additional data, each
once and in their order; and every array, map and object below keeps its parts
in the same way. -/
theorem object_keeps_members {node : BodyNode}
    (h : Noted.outcome (object ix f members) = .ok node) :
    ObjectOf (Mirrors ix) ix node f members := by
  obtain ⟨g, hg, h⟩ := Noted.outcome_bind_eq_ok.1 h
  obtain ⟨placed, hplaced, rfl⟩ := Noted.outcome_map_eq_ok.1 h
  obtain ⟨t, hown, rfl⟩ := exists_ownType_of_refine hg
  exact objectOf_of_placed hown (isPlaced_placeAll members _ placed hplaced)

/-- An index with one type, which has a text and a collection. -/
def userIndex : Index :=
  { catalog :=
      { document := .null
        schemas := [("ns.user", .map [(.text "properties", .map
          [(.text "displayName", .map [(.text "type", .text "string")]),
           (.text "tags", .map [(.text "type", .text "array")])])])] }
    root := .root }

/-- An object that names a type for itself, with a member of every kind. -/
def userMembers : List (String × Json) :=
  [("@odata.type", .str "#ns.user"), ("DISPLAYNAME", .str "A"), ("age", .int 7),
   ("manager@odata.bind", .str "users/1"), ("@odata.id", .str "users/2"),
   ("tags", .arr [.str "b", .null])]

/-- The type of `userIndex`. -/
def userType : TypeDescriptor :=
  { name := "ns.user"
    namespaceName := "ns"
    properties :=
      [("displayName", { kind := .string }), ("tags", { kind := .array, items := some {} })] }

/-- A frame without properties. -/
def entityFrame : Frame :=
  ⟨TypeRef.ofName "ns.entity", false, true, []⟩

/-- The object that is made of `userMembers`. -/
def userNode : BodyNode :=
  .object (TypeRef.ofName "ns.user")
    [("displayName", .string "A"), ("@odata.id", .string "users/2"),
     ("tags", .array (some .string) [.string "b", .null]),
     ("additionalData", .map
       [("age", .number (.int 7) {}), ("manager@odata.bind", .string "users/1")])] true

theorem object_keeps_members_user :
    Noted.outcome (object userIndex entityFrame userMembers) = .ok userNode ∧
      ObjectOf (Mirrors userIndex) userIndex userNode entityFrame userMembers := by
  have hdescribe : userIndex.describeType "ns.user" entityFrame.near = .ok (some userType) := by
    cbv
  have hown : ownType? userIndex entityFrame userMembers = .ok (some userType) := by
    show (userIndex.describeType "ns.user" entityFrame.near >>= fun t =>
      pure (t.filter (·.kind != .enum))) = _
    rw [hdescribe]
    rfl
  have hframe : Noted.outcome (Frame.refine userIndex entityFrame userMembers) =
      .ok (entityFrame.retyped (some userType)) := by
    rw [outcome_refine, hown]
    rfl
  have hnode : Noted.outcome (object userIndex entityFrame userMembers) = .ok userNode :=
    Noted.outcome_bind_eq_ok.2 ⟨_, hframe, rfl⟩
  exact ⟨hnode, object_keeps_members hnode⟩

/-! ## Whole bodies -/

/-- **The graph of a JSON body keeps everything of it.** -/
theorem mirrors_ofJson {r : ResolvedRequest} {v : Json} {graph : BodyGraph}
    (h : Noted.outcome (ofJson ix r v) = .ok graph) : Mirrors ix v graph.root := by
  unfold ofJson at h
  split at h
  · obtain ⟨g, hg, h⟩ := Noted.outcome_bind_eq_ok.1 h
    obtain ⟨placed, hplaced, h⟩ := Noted.outcome_bind_eq_ok.1 h
    obtain rfl := Noted.outcome_pure_eq_ok.1 h
    obtain ⟨f, hf⟩ := exists_refine_of_rootFrame hg
    exact mirrors_of_refine hf hplaced (isPlaced_placeAll _ g placed hplaced)
  · obtain ⟨n, hn, h⟩ := Noted.outcome_bind_eq_ok.1 h
    obtain rfl := Noted.outcome_pure_eq_ok.1 h
    exact mirrors_value _ _ _ _ _ hn

end Body

end ApiSnippets
