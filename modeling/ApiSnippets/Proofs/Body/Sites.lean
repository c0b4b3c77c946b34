import Mathlib.Logic.Relation
import ApiSnippets.Proofs.Body.Mirrors
import ApiSnippets.Proofs.Schema.Lookups
/-!
# Sites of a body

Where the values of a body are read, and as what. A site is a value together
with its declared shape, if there is one, and the way to its node in the graph.
The sites of a body follow from the body and its schema alone (`Site.Child`):
no graph has to be built to say which they are. Once it is built, the node of
every site is where the site says (`descendant?_of_reached`).
-/

namespace ApiSnippets

namespace Json

variable {v : Json} {items : List Json} {m : String × Json} {members : List (String × Json)}

theorem sizeOf_lt_of_mem_arr (h : v ∈ items) : sizeOf v < sizeOf (arr items) := by
  have hlt := List.sizeOf_lt_of_mem h
  simp only [arr.sizeOf_spec]
  omega

theorem sizeOf_lt_of_mem_obj (h : m ∈ members) : sizeOf m.2 < sizeOf (obj members) := by
  have hlt := List.sizeOf_lt_of_mem h
  have hpair : sizeOf m = 1 + sizeOf m.1 + sizeOf m.2 := by
    cases m
    rfl
  simp only [obj.sizeOf_spec]
  omega

end Json

namespace BodyNode

/-- The children of a node, in their order. -/
def children : BodyNode → List BodyNode
  | object _ members _ => members.map Prod.snd
  | array _ elements => elements
  | map members => members.map Prod.snd
  | _ => []

@[simp] theorem children_object (t : TypeRef) (members : List (String × BodyNode)) (d : Bool) :
    (object t members d).children = members.map Prod.snd := rfl

@[simp] theorem children_array (t : Option ItemType) (elements : List BodyNode) :
    (array t elements).children = elements := rfl

@[simp] theorem children_map (members : List (String × BodyNode)) :
    (map members).children = members.map Prod.snd := rfl

/-- The node that a way leads to, which tells the number of a child at every
step. -/
def descendant? : BodyNode → List Nat → Option BodyNode
  | n, [] => some n
  | n, i :: path => (n.children[i]?).bind fun c => descendant? c path

@[simp] theorem descendant?_nil (n : BodyNode) : n.descendant? [] = some n := rfl

@[simp] theorem descendant?_cons (n : BodyNode) (i : Nat) (path : List Nat) :
    n.descendant? (i :: path) = (n.children[i]?).bind fun c => c.descendant? path := rfl

theorem descendant?_append (n : BodyNode) (path more : List Nat) :
    n.descendant? (path ++ more) = (n.descendant? path).bind fun c => c.descendant? more := by
  induction path generalizing n with
  | nil => rfl
  | cons i path ih =>
    simp only [List.cons_append, descendant?]
    cases n.children[i]? with
    | none => rfl
    | some c => exact ih c

theorem mem_walkMembers_iff {m : BodyNode} {members : List (String × BodyNode)} :
    m ∈ walkMembers members ↔ ∃ c ∈ members.map Prod.snd, m ∈ c.walk := by
  simp only [mem_walkMembers, List.mem_map, exists_exists_and_eq_and]

/-- The walk of a node is the node and the walks of its children. -/
theorem mem_walk_iff {n m : BodyNode} : m ∈ n.walk ↔ m = n ∨ ∃ c ∈ n.children, m ∈ c.walk := by
  cases n with
  | object t members d => rw [walk, List.mem_cons, mem_walkMembers_iff, children_object]
  | array t elements => rw [walk, List.mem_cons, mem_walkAll, children_array]
  | map members => rw [walk, List.mem_cons, mem_walkMembers_iff, children_map]
  | _ => simp [walk, children]

theorem mem_walk_self (n : BodyNode) : n ∈ n.walk :=
  mem_walk_iff.2 (.inl rfl)

/-- What a way leads to is in the walk. -/
theorem mem_walk_of_descendant? {n m : BodyNode} {path : List Nat}
    (h : n.descendant? path = some m) : m ∈ n.walk := by
  induction path generalizing n with
  | nil =>
    obtain rfl := Option.some.inj h
    exact mem_walk_self n
  | cons i path ih =>
    obtain ⟨c, hc, hm⟩ := Option.bind_eq_some_iff.1 h
    exact mem_walk_iff.2 (.inr ⟨c, List.mem_of_getElem? hc, ih hm⟩)

end BodyNode

namespace Body

open Annotated (typeMember)

variable {ix : Index} {f : Frame} {members : List (String × Json)} {placed : List Placed}

/-! ## Values without a declared shape -/

mutual

/-- Where no shape is declared a value is read by its looks. -/
theorem outcome_value_none : ∀ (v : Json) (near : Option String) (hint : String),
    (value ix none near hint v).outcome = (untyped ix near v).outcome
  | .null, near, hint => by rw [value, untyped]
  | .bool b, near, hint => by
    rw [value, untyped]
    rfl
  | .int i, near, hint => by
    rw [value, untyped]
    rfl
  | .num x, near, hint => by
    rw [value, untyped]
    rfl
  | .str s, near, hint => by
    rw [value, untyped]
    rfl
  | .arr items, near, hint => by
    rw [value, untyped, Noted.outcome_bind, ← outcome_valueAll_none items near
      (Naming.singularize hint), ← Noted.outcome_bind]
    rfl
  | .obj members, near, hint => by
    rw [value, untyped, Noted.outcome_bind]
    rfl

theorem outcome_valueAll_none : ∀ (vs : List Json) (near : Option String) (hint : String),
    (valueAll ix none near hint vs).outcome = (untypedAll ix near vs).outcome
  | [], near, hint => by rw [valueAll, untypedAll]
  | v :: vs, near, hint => by
    rw [valueAll, untypedAll]
    simp only [Noted.outcome_bind, outcome_value_none v near hint,
      outcome_valueAll_none vs near hint]

end

/-! ## Sites -/

/-- The shape that a frame declares for a member: that of the property with
its name, and none for references and bindings. -/
def Frame.shape? (f : Frame) (name : String) : Option Shape :=
  match Annotated.roleOf name with
  | .member => (f.property? name).map Prod.snd
  | _ => none

/-- A value where it is read. -/
structure Site where
  /-- The way to the value's node from the root of the graph. -/
  path : List Nat
  shape : Option Shape
  /-- The namespace in which types are looked up. -/
  near : Option String
  /-- The name for types that have none. -/
  hint : String
  value : Json

/-- A member of an object, read in the object's frame. -/
def Frame.site (f : Frame) (path : List Nat) (name : String) (v : Json) : Site where
  path := path
  shape := f.shape? name
  near := f.near
  hint := f.entryName name
  value := v

/-- What the members of an object are read as. -/
def ObjectPlan.node (ix : Index) (near : Option String) (members : List (String × Json)) :
    ObjectPlan → Noted BodyNode
  | .fault cause => Noted.ofOutcome (.error (.shape cause))
  | .frame f => f.node <$> placeAll ix f members
  | .untyped => .map <$> untypedMembers ix near members

namespace Site

/-- The whole body. -/
def root (r : ResolvedRequest) (body : Json) : Site where
  path := []
  shape := r.operation.requestSchema
  near := none
  hint := addressedName r.segments
  value := body

/-- How the object at a site is read: the whole body by rules of its own,
any other object by its shape, or else by the type that it names for itself. -/
def plan (r : ResolvedRequest) (s : Site) (members : List (String × Json)) : Noted ObjectPlan :=
  if s.path.isEmpty then .frame <$> rootFrame r.index r members
  else do
    match ← planObject r.index s.shape s.hint members with
    | .untyped => planUntyped r.index s.near members
    | plan => pure plan

/-- What the value at a site is read as. -/
def node (r : ResolvedRequest) (s : Site) : Noted BodyNode :=
  match s.value with
  | .obj members => s.plan r members >>= ObjectPlan.node r.index s.near members
  | v => Body.value r.index s.shape s.near s.hint v

/-- **The sites one step below a site.** The elements of an array are read by
the shape of its items, if it declares one. The members of an object are read
by the properties of its frame, except that a reference is no value to read;
the members of what becomes a map are read without a shape. -/
inductive Child (r : ResolvedRequest) (s : Site) : Site → Prop
  | element {items : List Json} {i : Nat} {v : Json} : s.value = .arr items →
      s.shape.bind Shape.objectName? = none → items[i]? = some v →
      Child r s ⟨s.path ++ [i], itemShape s.shape, s.near, Naming.singularize s.hint, v⟩
  | staying {members : List (String × Json)} {f : Frame} {i : Nat} {name : String} {v : Json} :
      s.value = .obj members → (s.plan r members).outcome = .ok (.frame f) →
      (f.staying members)[i]? = some (name, v) → Annotated.roleOf name ≠ .id →
      Child r s (f.site (s.path ++ [i]) name v)
  /-- Additional data is in the map behind the members that stay. -/
  | leaving {members : List (String × Json)} {f : Frame} {i : Nat} {name : String} {v : Json} :
      s.value = .obj members → (s.plan r members).outcome = .ok (.frame f) →
      (f.leaving members)[i]? = some (name, v) →
      Child r s (f.site (s.path ++ [(f.staying members).length, i]) name v)
  | entry {members : List (String × Json)} {i : Nat} {name : String} {v : Json} :
      s.value = .obj members → (s.plan r members).outcome = .ok .untyped →
      members[i]? = some (name, v) → Child r s ⟨s.path ++ [i], none, s.near, name, v⟩

/-- That a site belongs to a body. -/
def Reached (r : ResolvedRequest) (body : Json) (s : Site) : Prop :=
  Relation.ReflTransGen (Child r) (root r body) s

variable {r : ResolvedRequest} {s c : Site} {n : BodyNode} {cause : ShapeFault}

/-! ## What sites are read as -/

theorem planUntyped_ne_fault {near : Option String} :
    (planUntyped ix near members).outcome ≠ .ok (.fault cause) := by
  intro h
  unfold planUntyped at h
  split at h
  · obtain ⟨t, -, h⟩ := Noted.outcome_bind_eq_ok.1 h
    split at h
    · obtain ⟨f, -, h⟩ := Noted.outcome_map_eq_ok.1 h
      cases h
    · simp at h
  · simp at h

theorem node_of_ne_obj (h : ∀ members, s.value ≠ .obj members) :
    s.node r = Body.value r.index s.shape s.near s.hint s.value := by
  unfold node
  split
  · next members hvalue => exact absurd hvalue (h members)
  · rfl

/-- Below the root a site is read as its value is, by its shape. -/
theorem outcome_node (h : s.path ≠ []) :
    (s.node r).outcome = (Body.value r.index s.shape s.near s.hint s.value).outcome := by
  unfold node
  split
  · next members hvalue =>
    rw [hvalue, Body.value, plan, if_neg (by simpa using h)]
    simp only [Noted.outcome_bind]
    cases (planObject r.index s.shape s.hint members).outcome with
    | error e => rfl
    | ok p =>
      cases p with
      | fault cause => rfl
      | frame f => rfl
      | untyped =>
        show (planUntyped r.index s.near members).outcome >>= _ = Noted.outcome (_ >>= _)
        rw [Noted.outcome_bind]
        cases hplan : (planUntyped r.index s.near members).outcome with
        | error e => rfl
        | ok p =>
          cases p with
          | fault cause => exact absurd hplan planUntyped_ne_fault
          | frame f => rfl
          | untyped => rfl
  · rfl

/-- The root of a graph is the node of the whole body. -/
theorem outcome_ofJson (v : Json) :
    (ofJson r.index r v).outcome.map BodyGraph.root = ((root r v).node r).outcome := by
  unfold ofJson
  split
  · next members =>
    show _ = ((root r (.obj members)).plan r members >>= _).outcome
    rw [plan, if_pos (by simp [root])]
    simp only [Noted.outcome_bind, Noted.outcome_map]
    cases (rootFrame r.index r members).outcome with
    | error e => rfl
    | ok f =>
      show Except.map _ ((placeAll r.index f members).outcome >>= _) =
        Noted.outcome (f.node <$> placeAll r.index f members)
      rw [Noted.outcome_map]
      cases (placeAll r.index f members).outcome <;> rfl
  · next hobj =>
    rw [node_of_ne_obj (s := root r v) hobj, Noted.outcome_bind]
    show Except.map _ ((Body.value r.index r.operation.requestSchema none
      (addressedName r.segments) v).outcome >>= _) = (Body.value r.index
      r.operation.requestSchema none (addressedName r.segments) v).outcome
    cases (Body.value r.index r.operation.requestSchema none
      (addressedName r.segments) v).outcome <;> rfl

end Site

/-! ## Members and entries -/

theorem shape?_of_bind {name : String} (hrole : Annotated.roleOf name = .bind) :
    f.shape? name = none := by
  simp [Frame.shape?, hrole]

theorem shape?_of_undeclared {name : String} (hrole : Annotated.roleOf name = .member)
    (hprop : f.property? name = none) : f.shape? name = none := by
  simp [Frame.shape?, hrole, hprop]

theorem shape?_of_property? {name declared : String} {shape : Shape}
    (hrole : Annotated.roleOf name = .member) (hprop : f.property? name = some (declared, shape)) :
    f.shape? name = some shape ∧ f.entryName name = declared := by
  constructor
  · simp [Frame.shape?, hrole, hprop]
  · simp [Frame.entryName, hrole, spelling?_eq, hprop]

theorem outcome_placeAll_type (v : Json) (ms : List (String × Json)) :
    (placeAll ix f ((typeMember, v) :: ms)).outcome = (placeAll ix f ms).outcome := by
  rw [placeAll, if_pos rfl]

theorem outcome_placeAll_id {name : String} (hrole : Annotated.roleOf name = .id) (v : Json)
    (ms : List (String × Json)) : (placeAll ix f ((name, v) :: ms)).outcome =
      (placeAll ix f ms).outcome >>= fun rest => .ok (⟨name, .string v.asText, false⟩ :: rest) := by
  have hname : name ≠ typeMember := by
    rintro rfl
    revert hrole
    decide
  rw [placeAll, if_neg hname, hrole]
  simp only [Noted.outcome_bind, Noted.outcome_pure]
  rfl

/-- A member that is no reference is read by the shape that its frame declares
for it. -/
theorem outcome_placeAll_member {name : String} (hname : name ≠ typeMember)
    (hid : Annotated.roleOf name ≠ .id) (v : Json) (ms : List (String × Json)) :
    (placeAll ix f ((name, v) :: ms)).outcome =
      (value ix (f.shape? name) f.near (f.entryName name) v).outcome >>= fun n =>
        (placeAll ix f ms).outcome >>= fun rest =>
          .ok (⟨f.entryName name, n, !f.stays name⟩ :: rest) := by
  rw [placeAll, if_neg hname]
  -- without a declared shape a value is read untyped
  cases hrole : Annotated.roleOf name with
  | id => exact absurd hrole hid
  | bind =>
    have hentry : f.entryName name = name := by simp [Frame.entryName, hrole]
    have hstays : f.stays name = false := by simp [Frame.stays, hrole]
    rw [shape?_of_bind hrole, hentry, hstays, outcome_value_none]
    simp only [Noted.outcome_bind, Noted.outcome_pure]
    cases (untyped ix f.near v).outcome <;> rfl
  | member =>
    cases hprop : f.property? name with
    | none =>
      have hspelling : f.spelling? name = none := by rw [spelling?_eq, hprop]; rfl
      have hentry : f.entryName name = name := by simp [Frame.entryName, hrole, hspelling]
      have hstays : (!f.stays name) = f.known := by simp [Frame.stays, hrole, hspelling]
      rw [shape?_of_undeclared hrole hprop, hentry, hstays, outcome_value_none]
      simp only [Noted.outcome_bind, Noted.outcome_pure]
      cases (untyped ix f.near v).outcome <;> rfl
    | some declared =>
      obtain ⟨declared, shape⟩ := declared
      obtain ⟨hshape, hentry⟩ := shape?_of_property? hrole hprop
      have hspelling : f.spelling? name = some declared := by rw [spelling?_eq, hprop]; rfl
      have hstays : f.stays name = true := by simp [Frame.stays, hrole, hspelling]
      rw [hshape, hentry, hstays]
      simp only [Noted.outcome_bind, Noted.outcome_pure]
      cases (value ix (some shape) f.near declared v).outcome <;> rfl

theorem stays_of_places {name : String} {v : Json} {p : Placed} (h : Places ix f name v p) :
    p.additional = !f.stays name :=
  (isPlaced_of_places (R := fun _ _ => True) h (fun _ _ _ => trivial) (fun _ _ _ _ _ => trivial)
    fun _ => trivial).additional

/-- What is placed for a member is what its site is read as. -/
theorem outcome_site_of_places {r : ResolvedRequest} {path : List Nat} {name : String} {v : Json}
    {p : Placed} (h : Places r.index f name v p) (hid : Annotated.roleOf name ≠ .id)
    (hpath : path ≠ []) : ((f.site path name v).node r).outcome = .ok p.node := by
  rw [Site.outcome_node hpath]
  cases h with
  | id hrole => exact absurd hrole hid
  | bind hrole hn =>
    simp only [Frame.site, shape?_of_bind hrole]
    rw [outcome_value_none]
    exact hn
  | @declared n declared shape hrole hprop hn =>
    obtain ⟨hshape, hentry⟩ := shape?_of_property? hrole hprop
    simp only [Frame.site, hshape, hentry]
    exact hn
  | undeclared hrole hprop hn =>
    simp only [Frame.site, shape?_of_undeclared hrole hprop]
    rw [outcome_value_none]
    exact hn

theorem forall₂_places : ∀ (ms : List (String × Json)) (placed : List Placed),
    (placeAll ix f ms).outcome = .ok placed →
      List.Forall₂ (fun m p => Places ix f m.1 m.2 p) (ms.filter fun m => m.1 != typeMember) placed
  | [], placed, h => by
    rw [placeAll] at h
    obtain rfl := Noted.outcome_pure_eq_ok.1 h
    exact .nil
  | (name, v) :: ms, placed, h => by
    by_cases htype : name = typeMember
    · rw [placeAll, if_pos htype] at h
      rw [List.filter_cons_of_neg (by simp [htype])]
      exact forall₂_places ms placed h
    · obtain ⟨p, rest, hp, hrest, rfl⟩ := placeAll_cons htype h
      rw [List.filter_cons_of_pos (by simpa using htype)]
      exact .cons hp (forall₂_places ms rest hrest)

theorem roleOf_ne_id_of_leaving {i : Nat} {name : String} {v : Json}
    (h : (f.leaving members)[i]? = some (name, v)) : Annotated.roleOf name ≠ .id := by
  intro hrole
  have hmem := List.mem_of_getElem? h
  simp [Frame.leaving, Frame.stays, hrole] at hmem

/-- The node of a member that stays. -/
theorem exists_child_of_staying (h : (placeAll ix f members).outcome = .ok placed) {i : Nat}
    {name : String} {v : Json} (hm : (f.staying members)[i]? = some (name, v)) :
    ∃ p, Places ix f name v p ∧ (f.node placed).children[i]? = some p.node := by
  have hentries := forall₂_staying (fun _ _ => stays_of_places) (forall₂_places members placed h)
  obtain ⟨e, he, p, hp, rfl⟩ := Outcome.exists_getElem?_of_forall₂ hentries hm
  refine ⟨p, hp, ?_⟩
  obtain ⟨hi, -⟩ := List.getElem?_eq_some_iff.1 he
  rw [Frame.node, BodyNode.children_object, List.getElem?_map, arrange,
    List.getElem?_append_left hi, he]
  rfl

/-- The node of a member that leaves, in the map behind those that stay. -/
theorem exists_child_of_leaving (h : (placeAll ix f members).outcome = .ok placed) {i : Nat}
    {name : String} {v : Json} (hm : (f.leaving members)[i]? = some (name, v)) :
    ∃ p, Places ix f name v p ∧
      (f.node placed).descendant? [(f.staying members).length, i] = some p.node := by
  have hplaces := forall₂_places members placed h
  have hstaying := (forall₂_staying (fun _ _ => stays_of_places) hplaces).length_eq
  have hentries := forall₂_leaving (fun _ _ => stays_of_places) hplaces
  obtain ⟨e, he, -, p, hp, rfl⟩ := Outcome.exists_getElem?_of_forall₂ hentries hm
  refine ⟨p, hp, ?_⟩
  have hextra : (Placed.pick true placed).isEmpty = false := by
    cases hpick : Placed.pick true placed with
    | nil => simp [hpick] at he
    | cons e es => rfl
  have hmap : (f.node placed).children[(f.staying members).length]? =
      some (.map (Placed.pick true placed)) := by
    simp [Frame.node, arrange, hextra, hstaying]
  simp [hmap, he]

/-! ## Nodes of sites -/

namespace Site

variable {r : ResolvedRequest} {s c : Site} {n : BodyNode}

theorem forall₂_valueAll {shape : Option Shape} {near : Option String} {hint : String} :
    ∀ (vs : List Json) (ns : List BodyNode), (valueAll ix shape near hint vs).outcome = .ok ns →
      List.Forall₂ (fun v n => (Body.value ix shape near hint v).outcome = .ok n) vs ns
  | [], ns, h => by
    rw [valueAll] at h
    obtain rfl := Noted.outcome_pure_eq_ok.1 h
    exact .nil
  | v :: vs, ns, h => by
    rw [valueAll] at h
    obtain ⟨n, hn, h⟩ := Noted.outcome_bind_eq_ok.1 h
    obtain ⟨ns', hns, h⟩ := Noted.outcome_bind_eq_ok.1 h
    obtain rfl := Noted.outcome_pure_eq_ok.1 h
    exact .cons hn (forall₂_valueAll vs ns' hns)

theorem forall₂_untypedMembers {near : Option String} :
    ∀ (ms : List (String × Json)) (es : List (String × BodyNode)),
      (untypedMembers ix near ms).outcome = .ok es →
      List.Forall₂ (fun m e => (untyped ix near m.2).outcome = .ok e.2) ms es
  | [], es, h => by
    rw [untypedMembers] at h
    obtain rfl := Noted.outcome_pure_eq_ok.1 h
    exact .nil
  | (name, v) :: ms, es, h => by
    rw [untypedMembers] at h
    obtain ⟨n, hn, h⟩ := Noted.outcome_bind_eq_ok.1 h
    obtain ⟨es', hes, h⟩ := Noted.outcome_bind_eq_ok.1 h
    obtain rfl := Noted.outcome_pure_eq_ok.1 h
    exact .cons hn (forall₂_untypedMembers ms es' hes)

/-- What an object at a site is, once it is known how it is read. -/
theorem outcome_node_obj (hvalue : s.value = .obj members) {plan : ObjectPlan}
    (hplan : (s.plan r members).outcome = .ok plan) :
    (s.node r).outcome = (plan.node r.index s.near members).outcome := by
  unfold node
  rw [hvalue]
  simp only [Noted.outcome_bind, hplan]
  rfl

/-- What an array at a site is. -/
theorem outcome_node_arr {items : List Json} (hvalue : s.value = .arr items)
    (hname : s.shape.bind Shape.objectName? = none) :
    (s.node r).outcome =
      (valueAll r.index (itemShape s.shape) s.near (Naming.singularize s.hint) items).outcome.map
        fun elements => .array (itemType (itemShape s.shape) elements) elements := by
  unfold node
  rw [hvalue]
  simp only [Body.value, hname, Noted.outcome_bind]
  cases (valueAll r.index (itemShape s.shape) s.near (Naming.singularize s.hint) items).outcome <;>
    rfl

/-- **One step down**: where a site has a node, the sites below it have the
nodes below that one. -/
theorem Child.descendant? (h : Child r s c) (hn : (s.node r).outcome = .ok n) :
    ∃ way m, c.path = s.path ++ way ∧ n.descendant? way = some m ∧
      (c.node r).outcome = .ok m := by
  cases h with
  | @element items i v hvalue hname hi =>
    rw [outcome_node_arr hvalue hname] at hn
    obtain ⟨elements, helements, rfl⟩ := Outcome.map_eq_ok.1 hn
    obtain ⟨m, hm, hread⟩ :=
      Outcome.exists_getElem?_of_forall₂ (forall₂_valueAll items elements helements) hi
    refine ⟨[i], m, rfl, by simp [hm], ?_⟩
    rw [outcome_node (by simp)]
    exact hread
  | @staying members f i name v hvalue hplan hm hid =>
    rw [outcome_node_obj hvalue hplan] at hn
    obtain ⟨placed, hplaced, rfl⟩ := Noted.outcome_map_eq_ok.1 hn
    obtain ⟨p, hp, hchild⟩ := exists_child_of_staying hplaced hm
    exact ⟨[i], p.node, rfl, by simp [hchild], outcome_site_of_places hp hid (by simp)⟩
  | @leaving members f i name v hvalue hplan hm =>
    rw [outcome_node_obj hvalue hplan] at hn
    obtain ⟨placed, hplaced, rfl⟩ := Noted.outcome_map_eq_ok.1 hn
    obtain ⟨p, hp, hdescendant⟩ := exists_child_of_leaving hplaced hm
    have hid : Annotated.roleOf name ≠ .id := roleOf_ne_id_of_leaving hm
    exact ⟨_, p.node, rfl, hdescendant, outcome_site_of_places hp hid (by simp)⟩
  | @entry members i name v hvalue hplan hm =>
    rw [outcome_node_obj hvalue hplan] at hn
    obtain ⟨entries, hentries, rfl⟩ := Noted.outcome_map_eq_ok.1 hn
    obtain ⟨e, he, hread⟩ :=
      Outcome.exists_getElem?_of_forall₂ (forall₂_untypedMembers members entries hentries) hm
    refine ⟨[i], e.2, rfl, by simp [he], ?_⟩
    rw [outcome_node (by simp), outcome_value_none]
    exact hread

/-- **The node of every site** is where the site says. -/
theorem descendant?_of_reached {v : Json} (h : Reached r v s)
    (hn : ((root r v).node r).outcome = .ok n) :
    ∃ m, n.descendant? s.path = some m ∧ (s.node r).outcome = .ok m := by
  induction h with
  | refl => exact ⟨n, rfl, hn⟩
  | tail _ hchild ih =>
    obtain ⟨m, hm, hnode⟩ := ih
    obtain ⟨way, m', hpath, hway, hnode'⟩ := hchild.descendant? hnode
    refine ⟨m', ?_, hnode'⟩
    rw [hpath, BodyNode.descendant?_append, hm]
    exact hway

end Site

end Body

end ApiSnippets
