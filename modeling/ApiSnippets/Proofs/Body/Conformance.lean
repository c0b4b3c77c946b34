import ApiSnippets.Proofs.Body.Sites
/-!
# Bodies conform to their schema

Two shapes leave no choice about the node of a value: that of a collection and
that of an object with a type name. A graph has an array or null at every site
of the first kind and an object or null at every site of the second, at any
depth. And no other disagreement exists: when a body is refused because of its
shape, one of its sites has a value of the wrong sort there, or the whole body
is an object where the operation declares something else (`build_conforms`).
-/

namespace ApiSnippets

namespace Body

open Outcome (NoMismatch)

variable {ix : Index} {f : Frame} {members : List (String × Json)} {n : BodyNode}
  {r : ResolvedRequest} {s : Site} {sh : Shape} {cause : ShapeFault}

/-- That a node is what a shape asks for, where it asks for anything. -/
structure Admits (sh : Shape) (n : BodyNode) : Prop where
  collection : sh.kind = .array → n = .null ∨ ∃ item elements, n = .array item elements
  object : sh.objectName?.isSome → n = .null ∨ ∃ t ms derived, n = .object t ms derived

/-- That the value at a site is neither null nor of the sort its shape asks
for. -/
inductive Site.Disagrees (s : Site) : Prop
  | collection {sh : Shape} : s.shape = some sh → sh.kind = .array → s.value ≠ .null →
      (∀ items, s.value ≠ .arr items) → Disagrees s
  | object {sh : Shape} : s.shape = some sh → sh.objectName?.isSome → s.value ≠ .null →
      (∀ members, s.value ≠ .obj members) → Disagrees s

/-- That a body is an object where the operation declares another kind. -/
def ObjectRefused (r : ResolvedRequest) (body : Json) : Prop :=
  ∃ members sh, body = .obj members ∧ r.operation.requestSchema = some sh ∧
    sh.kind ≠ .object ∧ sh.kind ≠ .unknown

/-! ## What is read is admitted -/

theorem leafFault_eq_none {hint : String} {v : Json} (h : leafFault (some sh) hint v = none) :
    sh.kind ≠ .array ∧ sh.objectName? = none := by
  unfold leafFault at h
  split at h
  · cases h
  · next hname =>
    refine ⟨fun hkind => ?_, hname⟩
    simp [isCollection, hkind] at h

/-- A value that has been read had no fault. -/
theorem fault_eq_none {fault : Option ShapeFault} {m : Noted BodyNode}
    (h : Noted.outcome (match fault with
      | some cause => Noted.ofOutcome (.error (.shape cause))
      | none => m) = .ok n) : fault = none := by
  cases fault with
  | some cause => simp at h
  | none => rfl

/-- A shape that asks for nothing admits every node. -/
theorem admits_of_silent (h : sh.kind ≠ .array ∧ sh.objectName? = none) : Admits sh n where
  collection hkind := absurd hkind h.1
  object hname := by simp [h.2] at hname

theorem objectName?_of_array (h : sh.kind = .array) : sh.objectName? = none := by
  simp [Shape.objectName?, h]

theorem admits_array {item : Option ItemType} {elements : List BodyNode}
    (h : sh.objectName? = none) : Admits sh (.array item elements) where
  collection _ := .inr ⟨item, elements, rfl⟩
  object hname := by simp [h] at hname

theorem admits_object {placed : List Placed} (h : sh.kind ≠ .array) :
    Admits sh (f.node placed) where
  collection hkind := absurd hkind h
  object _ := .inr ⟨_, _, _, rfl⟩

/-- The plan for an object under a shape that asks for something. -/
theorem planObject_of_asks {hint : String} {plan : ObjectPlan}
    (h : (planObject ix (some sh) hint members).outcome = .ok plan) :
    (sh.kind = .array ∧ ∃ cause, plan = .fault cause) ∨
      (sh.kind ≠ .array ∧ sh.objectName?.isSome ∧ ∃ f, plan = .frame f) ∨
      (sh.kind ≠ .array ∧ sh.objectName? = none ∧ ∀ cause, plan ≠ .fault cause) := by
  unfold planObject at h
  split at h
  · next hcoll =>
    obtain rfl := Noted.outcome_pure_eq_ok.1 h
    exact .inl ⟨by simpa [isCollection] using hcoll, _, rfl⟩
  · next hcoll =>
    have hkind : sh.kind ≠ .array := by simpa [isCollection] using hcoll
    simp only at h
    split at h
    · next name hname =>
      obtain ⟨type, -, h⟩ := Noted.outcome_bind_eq_ok.1 h
      obtain ⟨f, -, rfl⟩ := Noted.outcome_map_eq_ok.1 h
      exact .inr (.inl ⟨hkind, by simp [hname], f, rfl⟩)
    · next hname =>
      refine .inr (.inr ⟨hkind, hname, ?_⟩)
      rintro cause rfl
      split at h
      · simp at h
      · obtain ⟨f, -, h⟩ := Noted.outcome_map_eq_ok.1 h
        cases h

/-- **What a value is read as** is admitted by its shape. -/
theorem admits_value {near : Option String} {hint : String} {v : Json}
    (h : (value ix (some sh) near hint v).outcome = .ok n) : Admits sh n := by
  cases v with
  | null =>
    rw [value] at h
    obtain rfl := Noted.outcome_pure_eq_ok.1 h
    exact ⟨fun _ => .inl rfl, fun _ => .inl rfl⟩
  | bool _ | int _ | num _ | str _ =>
    rw [value] at h
    exact admits_of_silent (leafFault_eq_none (fault_eq_none h))
  | arr items =>
    rw [value] at h
    split at h
    · simp at h
    · next hname =>
      obtain ⟨elements, -, h⟩ := Noted.outcome_bind_eq_ok.1 h
      obtain rfl := Noted.outcome_pure_eq_ok.1 h
      exact admits_array hname
  | obj members =>
    rw [value] at h
    obtain ⟨plan, hplan, h⟩ := Noted.outcome_bind_eq_ok.1 h
    -- a collection refuses an object, and a shape that asks for none lets it be anything
    rcases planObject_of_asks hplan with ⟨-, cause, rfl⟩ | ⟨hkind, -, f, rfl⟩ | ⟨hkind, hname, -⟩
    · simp at h
    · obtain ⟨placed, -, rfl⟩ := Noted.outcome_map_eq_ok.1 h
      exact admits_object hkind
    · exact admits_of_silent ⟨hkind, hname⟩

/-- What the whole body is read as is admitted by the operation's shape. -/
theorem admits_root {v : Json} (hsh : r.operation.requestSchema = some sh)
    (h : ((Site.root r v).node r).outcome = .ok n) : Admits sh n := by
  by_cases hobj : ∃ members, v = .obj members
  · obtain ⟨members, rfl⟩ := hobj
    obtain ⟨plan, hplan, h⟩ := Noted.outcome_bind_eq_ok.1 h
    rw [Site.plan, if_pos (by simp [Site.root])] at hplan
    obtain ⟨f, hf, rfl⟩ := Noted.outcome_map_eq_ok.1 hplan
    obtain ⟨placed, -, rfl⟩ := Noted.outcome_map_eq_ok.1 h
    refine admits_object fun hkind => ?_
    -- the frame of a body object is refused when the operation declares a collection
    unfold rootFrame at hf
    simp [hsh, objectName?_of_array hkind, hkind] at hf
  · rw [Site.node_of_ne_obj (s := Site.root r v) fun members hv => hobj ⟨members, hv⟩,
      Site.root, hsh] at h
    exact admits_value h

namespace Site

theorem Child.path_ne_nil {c : Site} (h : Child r s c) : c.path ≠ [] := by
  cases h <;> simp [Frame.site]

/-- Every site but the whole body has a way to it. -/
theorem eq_root_or_path_ne_nil {v : Json} (h : Reached r v s) : s = root r v ∨ s.path ≠ [] := by
  cases h with
  | refl => exact .inl rfl
  | tail _ hchild => exact .inr hchild.path_ne_nil

/-- **Every node is admitted** by the shape of its site. -/
theorem admits_of_reached {v : Json} (h : Reached r v s) (hs : s.shape = some sh)
    (hn : (s.node r).outcome = .ok n) : Admits sh n := by
  rcases eq_root_or_path_ne_nil h with rfl | hpath
  · exact admits_root hs hn
  · rw [outcome_node hpath, hs] at hn
    exact admits_value hn

end Site

/-! ## What is refused -/

theorem typeRefOf_noMismatch (name : String) : (typeRefOf ix name).NoMismatch :=
  .bind (ix.describeType_noMismatch name none) fun _ => .ok _

theorem objectType?_noMismatch (name : String) (near : Option String) :
    (objectType? ix name near).NoMismatch :=
  .bind (ix.describeType_noMismatch name near) fun _ => .ok _

theorem refine_noMismatch (f : Frame) (members : List (String × Json)) :
    (Frame.refine ix f members).outcome.NoMismatch := by
  unfold Frame.refine
  split
  · exact .ok _
  · next name _ =>
    rw [Noted.outcome_bind, Noted.outcome_ofOutcome]
    refine .bind (objectType?_noMismatch name f.near) fun t => ?_
    cases t with
    | some t => exact .ok _
    | none => exact .ok _

theorem namedFrame_noMismatch (type : TypeRef) (members : List (String × Json)) :
    (namedFrame ix type members).outcome.NoMismatch := by
  unfold namedFrame
  rw [Noted.outcome_bind, Noted.outcome_ofOutcome]
  exact .bind (.bind (ix.describeType_noMismatch _ _) fun _ => .ok _)
    fun properties => refine_noMismatch _ members

theorem planObject_noMismatch (shape : Option Shape) (hint : String)
    (members : List (String × Json)) : (planObject ix shape hint members).outcome.NoMismatch := by
  unfold planObject
  split
  · exact .ok _
  split
  · exact .ok _
  split
  · next name _ =>
    rw [Noted.outcome_bind, Noted.outcome_ofOutcome]
    refine .bind (typeRefOf_noMismatch name) fun type => ?_
    rw [Noted.outcome_map]
    exact (namedFrame_noMismatch type members).map
  split
  · exact .ok _
  · simp only [Noted.outcome_map]
    exact (refine_noMismatch _ members).map

theorem planUntyped_noMismatch (near : Option String) (members : List (String × Json)) :
    (planUntyped ix near members).outcome.NoMismatch := by
  unfold planUntyped
  split
  · rw [Noted.outcome_bind, Noted.outcome_ofOutcome]
    refine .bind (objectType?_noMismatch _ near) fun t => ?_
    cases t with
    | some t =>
      simp only [Noted.outcome_map]
      exact (namedFrame_noMismatch _ members).map
    | none => exact .ok _
  · exact .ok _

theorem enumNode_noMismatch (hint text : String) :
    (enumNode ix sh hint text).outcome.NoMismatch := by
  unfold enumNode
  rw [Noted.outcome_bind, Noted.outcome_ofOutcome]
  refine .bind ?_ fun found => ?_
  · unfold enumMembers
    split
    · refine .bind (ix.describeType_noMismatch _ none) fun t => ?_
      cases t with
      | some t => exact .ok _
      | none => exact .ok _
    · exact .ok _
  · obtain ⟨names, flags⟩ := found
    simp only
    split <;> exact .ok _

theorem textNode_noMismatch (shape : Option Shape) (hint text : String) :
    (textNode ix shape hint text).outcome.NoMismatch := by
  unfold textNode
  split
  · exact .ok _
  split
  · exact enumNode_noMismatch hint text
  split
  · exact .ok _
  split
  · exact .ok _
  · exact .ok _

/-- The frame of a body object is refused for one reason only. -/
theorem refused_of_rootFrame (h : (rootFrame r.index r members).outcome = .error (.shape cause)) :
    ObjectRefused r (.obj members) := by
  unfold rootFrame at h
  simp only at h
  split at h
  · next name _ =>
    rw [Noted.outcome_bind, Noted.outcome_ofOutcome] at h
    exact absurd h (NoMismatch.bind (typeRefOf_noMismatch name)
      (fun type => namedFrame_noMismatch type members) cause)
  · next sh _ hsh =>
    split at h
    · exact absurd h (refine_noMismatch _ members cause)
    · next hkind =>
      rw [not_or] at hkind
      exact ⟨members, sh, rfl, hsh, hkind⟩
  · exact absurd h (refine_noMismatch _ members cause)

theorem exists_of_valueAll_eq_error {shape : Option Shape} {near : Option String} {hint : String}
    {e : Fault} : ∀ vs : List Json, (valueAll ix shape near hint vs).outcome = .error e →
      ∃ v ∈ vs, (value ix shape near hint v).outcome = .error e
  | [], h => by
    rw [valueAll] at h
    cases h
  | v :: vs, h => by
    rw [valueAll, Noted.outcome_bind] at h
    rcases Outcome.bind_eq_error.1 h with h | ⟨n, -, h⟩
    · exact ⟨v, List.mem_cons_self, h⟩
    rw [Noted.outcome_bind] at h
    rcases Outcome.bind_eq_error.1 h with h | ⟨ns, -, h⟩
    · obtain ⟨v', hmem, hv⟩ := exists_of_valueAll_eq_error vs h
      exact ⟨v', List.mem_cons_of_mem _ hmem, hv⟩
    · cases h

theorem exists_of_untypedMembers_eq_error {near : Option String} {e : Fault} :
    ∀ ms : List (String × Json), (untypedMembers ix near ms).outcome = .error e →
      ∃ m ∈ ms, (untyped ix near m.2).outcome = .error e
  | [], h => by
    rw [untypedMembers] at h
    cases h
  | (name, v) :: ms, h => by
    rw [untypedMembers, Noted.outcome_bind] at h
    rcases Outcome.bind_eq_error.1 h with h | ⟨n, -, h⟩
    · exact ⟨(name, v), List.mem_cons_self, h⟩
    rw [Noted.outcome_bind] at h
    rcases Outcome.bind_eq_error.1 h with h | ⟨es, -, h⟩
    · obtain ⟨m, hmem, hm⟩ := exists_of_untypedMembers_eq_error ms h
      exact ⟨m, List.mem_cons_of_mem _ hmem, hm⟩
    · cases h

/-- What fails when members are placed is the reading of one of them. -/
theorem exists_of_placeAll_eq_error {e : Fault} :
    ∀ ms : List (String × Json), (placeAll r.index f ms).outcome = .error e →
      ∃ m ∈ ms, m.1 ≠ Annotated.typeMember ∧ Annotated.roleOf m.1 ≠ .id ∧
        ∀ path ≠ [], ((f.site path m.1 m.2).node r).outcome = .error e
  | [], h => by
    rw [placeAll] at h
    cases h
  | (name, v) :: ms, h => by
    have htail : (placeAll r.index f ms).outcome = .error e →
        ∃ m ∈ (name, v) :: ms, m.1 ≠ Annotated.typeMember ∧ Annotated.roleOf m.1 ≠ .id ∧
          ∀ path ≠ [], ((f.site path m.1 m.2).node r).outcome = .error e := by
      intro h
      obtain ⟨m, hmem, hm⟩ := exists_of_placeAll_eq_error ms h
      exact ⟨m, List.mem_cons_of_mem _ hmem, hm⟩
    -- annotations of types and references are never refused
    by_cases htype : name = Annotated.typeMember
    · subst htype
      rw [outcome_placeAll_type] at h
      exact htail h
    by_cases hid : Annotated.roleOf name = .id
    · rw [outcome_placeAll_id hid] at h
      rcases Outcome.bind_eq_error.1 h with h | ⟨rest, -, h⟩
      · exact htail h
      · cases h
    rw [outcome_placeAll_member htype hid] at h
    rcases Outcome.bind_eq_error.1 h with h | ⟨n, -, h⟩
    · refine ⟨(name, v), List.mem_cons_self, htype, hid, fun path hpath => ?_⟩
      rw [Site.outcome_node hpath]
      exact h
    · rcases Outcome.bind_eq_error.1 h with h | ⟨rest, -, h⟩
      · exact htail h
      · cases h

namespace Site

/-- A value without parts is refused only when it disagrees. -/
theorem disagrees_of_leafFault {hint : String} (hv : isPlain s.value = true)
    (h : leafFault s.shape hint s.value = some cause) : s.Disagrees := by
  have hnull : s.value ≠ .null := by
    intro hvalue
    simp [hvalue, isPlain] at hv
  unfold leafFault at h
  split at h
  · next name hname =>
    obtain ⟨sh, hsh, hname⟩ := Option.bind_eq_some_iff.1 hname
    refine .object hsh (by simp [hname]) hnull fun members hvalue => ?_
    simp [hvalue, isPlain] at hv
  · split at h
    · next hcoll =>
      cases hsh : s.shape with
      | none => simp [hsh, isCollection] at hcoll
      | some sh =>
        have hkind : sh.kind = .array := by simpa [hsh, isCollection] using hcoll
        refine .collection hsh hkind hnull fun items hvalue => ?_
        simp [hvalue, isPlain] at hv
    · cases h

/-- The plan for an object fails over a shape only for the whole body. -/
theorem refused_of_plan (h : (s.plan r members).outcome = .error (.shape cause)) :
    s.path = [] ∧ ObjectRefused r (.obj members) := by
  unfold plan at h
  split at h
  · next hpath =>
    rw [Noted.outcome_map] at h
    exact ⟨by simpa using hpath, refused_of_rootFrame (Outcome.map_eq_error.1 h)⟩
  · rw [Noted.outcome_bind] at h
    rcases Outcome.bind_eq_error.1 h with h | ⟨p, -, h⟩
    · exact absurd h (planObject_noMismatch _ _ members cause)
    · cases p with
      | fault cause => cases h
      | frame f => cases h
      | untyped => exact absurd h (planUntyped_noMismatch _ members cause)

theorem isCollection_of_plan (h : (s.plan r members).outcome = .ok (.fault cause)) :
    ∃ sh, s.shape = some sh ∧ sh.kind = .array := by
  unfold plan at h
  split at h
  · obtain ⟨f, -, h⟩ := Noted.outcome_map_eq_ok.1 h
    cases h
  · obtain ⟨p, hp, h⟩ := Noted.outcome_bind_eq_ok.1 h
    cases p with
    | untyped => exact absurd h planUntyped_ne_fault
    | frame f => cases h
    | fault cause =>
      cases hsh : s.shape with
      | none =>
        rw [hsh] at hp
        cases hp
      | some sh =>
        rw [hsh] at hp
        rcases planObject_of_asks hp with ⟨hkind, -⟩ | ⟨-, -, f, hf⟩ | ⟨-, -, hp⟩
        · exact ⟨sh, rfl, hkind⟩
        · cases hf
        · exact absurd rfl (hp cause)

/-- A fault at a site comes from its own value or from a site below. -/
inductive Blames (r : ResolvedRequest) (s : Site) (cause : ShapeFault) : Prop
  | here : s.Disagrees → Blames r s cause
  | root : s.path = [] → ObjectRefused r s.value → Blames r s cause
  | below {c : Site} : Child r s c → sizeOf c.value < sizeOf s.value →
      (c.node r).outcome = .error (.shape cause) → Blames r s cause

theorem pure_noMismatch (n : BodyNode) : (pure n : Noted BodyNode).outcome.NoMismatch :=
  .ok n

theorem blames_of_leaf {m : Noted BodyNode} (hm : m.outcome.NoMismatch)
    (hv : isPlain s.value = true)
    (h : Noted.outcome (match leafFault s.shape s.hint s.value with
      | some cause => Noted.ofOutcome (.error (.shape cause))
      | none => m) = .error (.shape cause)) : Blames r s cause := by
  split at h
  · next cause hfault => exact .here (disagrees_of_leafFault hv hfault)
  · exact absurd h (hm cause)

theorem blames_of_arr {items : List Json} (hvalue : s.value = .arr items)
    (h : (s.node r).outcome = .error (.shape cause)) : Blames r s cause := by
  cases hname : s.shape.bind Shape.objectName? with
  | some name =>
    obtain ⟨sh, hsh, hname⟩ := Option.bind_eq_some_iff.1 hname
    exact .here (.object hsh (by simp [hname]) (by simp [hvalue]) (by simp [hvalue]))
  | none =>
    rw [outcome_node_arr hvalue hname] at h
    obtain ⟨v, hmem, hv⟩ := exists_of_valueAll_eq_error items (Outcome.map_eq_error.1 h)
    obtain ⟨i, hi⟩ := List.getElem?_of_mem hmem
    have hlt : sizeOf v < sizeOf s.value := hvalue ▸ Json.sizeOf_lt_of_mem_arr hmem
    refine .below (.element hvalue hname hi) hlt ?_
    rw [outcome_node (by simp)]
    exact hv

/-- An object fails as a whole, or one of its members does. -/
theorem blames_of_obj {members : List (String × Json)} (hvalue : s.value = .obj members)
    (h : (s.node r).outcome = .error (.shape cause)) : Blames r s cause := by
  have hlt : ∀ m ∈ members, sizeOf m.2 < sizeOf s.value := fun m hmem =>
    hvalue ▸ Json.sizeOf_lt_of_mem_obj hmem
  cases hplan : (s.plan r members).outcome with
  | error e =>
    rw [node, hvalue, Noted.outcome_bind, hplan] at h
    obtain rfl := Except.error.inj h
    obtain ⟨hpath, hrefused⟩ := refused_of_plan hplan
    exact .root hpath (hvalue ▸ hrefused)
  | ok p =>
    rw [outcome_node_obj hvalue hplan] at h
    cases p with
    | fault cause =>
      obtain ⟨sh, hsh, hkind⟩ := isCollection_of_plan hplan
      exact .here (.collection hsh hkind (by simp [hvalue]) (by simp [hvalue]))
    | frame f =>
      rw [ObjectPlan.node, Noted.outcome_map] at h
      obtain ⟨m, hmem, htype, hid, hm⟩ :=
        exists_of_placeAll_eq_error members (Outcome.map_eq_error.1 h)
      -- the site of a member is numbered among those that stay, or those that leave
      cases hstays : f.stays m.1 with
      | true =>
        have hmem' : m ∈ f.staying members := List.mem_filter.2 ⟨hmem, by simp [htype, hstays]⟩
        obtain ⟨i, hi⟩ := List.getElem?_of_mem hmem'
        exact .below (.staying hvalue hplan hi hid) (hlt m hmem) (hm _ (by simp))
      | false =>
        have hmem' : m ∈ f.leaving members := List.mem_filter.2 ⟨hmem, by simp [htype, hstays]⟩
        obtain ⟨i, hi⟩ := List.getElem?_of_mem hmem'
        exact .below (.leaving hvalue hplan hi) (hlt m hmem) (hm _ (by simp))
    | untyped =>
      rw [ObjectPlan.node, Noted.outcome_map] at h
      obtain ⟨m, hmem, hm⟩ := exists_of_untypedMembers_eq_error members (Outcome.map_eq_error.1 h)
      obtain ⟨i, hi⟩ := List.getElem?_of_mem hmem
      refine .below (.entry hvalue hplan hi) (hlt m hmem) ?_
      rw [outcome_node (by simp), outcome_value_none]
      exact hm

/-- **One step towards the fault.** -/
theorem blames_of_node (h : (s.node r).outcome = .error (.shape cause)) : Blames r s cause := by
  cases hvalue : s.value with
  | null =>
    rw [node_of_ne_obj (by simp [hvalue]), hvalue, Body.value] at h
    cases h
  | bool _ | int _ | num _ =>
    rw [node_of_ne_obj (by simp [hvalue]), hvalue, Body.value, ← hvalue] at h
    exact blames_of_leaf (pure_noMismatch _) (hvalue ▸ rfl) h
  | str t =>
    rw [node_of_ne_obj (by simp [hvalue]), hvalue, Body.value, ← hvalue] at h
    exact blames_of_leaf (textNode_noMismatch _ _ _) (hvalue ▸ rfl) h
  | arr items => exact blames_of_arr hvalue h
  | obj members => exact blames_of_obj hvalue h

/-- **The site of a fault.** The induction is on the size of the value: the
fault moves to a site with a smaller one until it stays. -/
theorem exists_fault_of_reached {v : Json} (hs : Reached r v s)
    (h : (s.node r).outcome = .error (.shape cause)) :
    (∃ t, Reached r v t ∧ t.Disagrees) ∨ ObjectRefused r v := by
  induction hsize : sizeOf s.value using Nat.strongRecOn generalizing s with
  | _ size ih =>
    cases blames_of_node h with
    | here hdis => exact .inl ⟨s, hs, hdis⟩
    | root hpath hrefused =>
      rcases eq_root_or_path_ne_nil hs with rfl | hne
      · exact .inr hrefused
      · exact absurd hpath hne
    | below hchild hlt hc => exact ih _ (hsize ▸ hlt) (hs.tail hchild) hc rfl

end Site

/-! ## Bodies of requests -/

/-- Whether a media type is that of JSON; an empty one may be. -/
def speaksJson (media : String) : Bool :=
  Text.contains "json" media || media.isEmpty

/-- The JSON value that a request sends, when its body is typed as one. -/
def sentJson? (r : ResolvedRequest) : Option Json := do
  let octets ← r.payload?
  let media := mediaType r.contentType
  if !Index.isBinaryMedia media && speaksJson media then (jsonOf? octets).toOption.join else none

theorem sentJson?_eq_some {v : Json} : sentJson? r = some v ↔ ∃ octets, r.payload? = some octets ∧
    Index.isBinaryMedia (mediaType r.contentType) = false ∧
      speaksJson (mediaType r.contentType) = true ∧ jsonOf? octets = .ok (some v) := by
  have hread : ∀ x : Outcome (Option Json), x.toOption.join = some v ↔ x = .ok (some v) := by
    intro x
    cases x with
    | error e => simp [Except.toOption]
    | ok found => simp [Except.toOption]
  simp [sentJson?, Option.bind_eq_some_iff, hread, and_assoc]

/-- A text without a declared media type is sent as the value it is read as. -/
theorem sentJson?_of_read {v : Json} {text : List Char}
    (hpayload : r.payload? = some (Utf8.encode text)) (htype : r.contentType = none)
    (hdecode : Utf8.decode? (withoutMark (Utf8.encode text)) = some (String.ofList text))
    (hread : Json.read (String.ofList text) = .ok v) : sentJson? r = some v := by
  have hbinary : Index.isBinaryMedia (mediaType none) = false := rfl
  have hjson : speaksJson (mediaType none) = true := rfl
  refine sentJson?_eq_some.2 ⟨Utf8.encode text, hpayload, htype ▸ hbinary, htype ▸ hjson, ?_⟩
  rw [jsonOf?, hdecode]
  simp only [hread]

/-- A body that is typed is the graph of the value it sends. -/
theorem outcome_build {v : Json} (h : sentJson? r = some v) :
    (build r).outcome = (ofJson r.index r v).outcome.map some := by
  obtain ⟨octets, hoctets, hbinary, hjson, hread⟩ := sentJson?_eq_some.1 h
  unfold build
  rw [hoctets]
  simp only [hbinary, Bool.false_eq_true, if_false, hread]
  rw [Noted.outcome_bind, Noted.outcome_ofOutcome]
  simp only [bind, Except.bind]
  rw [← speaksJson, if_pos hjson, Noted.outcome_map]

/-- Reading a text as JSON says nothing about shapes. -/
theorem jsonOf?_noMismatch (octets : Bytes) : (jsonOf? octets).NoMismatch := by
  unfold jsonOf?
  split
  · exact .ok none
  · split
    · exact .ok _
    · exact .ok none
    · intro cause h
      cases h

/-- Only a body that is typed can be refused because of a shape. -/
theorem exists_sentJson?_of_build (h : (build r).outcome = .error (.shape cause)) :
    ∃ v, sentJson? r = some v := by
  unfold build at h
  split at h
  · cases h
  · next octets hoctets =>
    simp only at h
    split at h
    · cases h
    · next hbinary =>
      rw [Noted.outcome_bind, Noted.outcome_ofOutcome] at h
      rcases Outcome.bind_eq_error.1 h with h | ⟨found, hread, h⟩
      · exact absurd h (jsonOf?_noMismatch octets cause)
      cases found with
      | some v =>
        simp only at h
        split at h
        · next hjson =>
          exact ⟨v, sentJson?_eq_some.2 ⟨octets, hoctets, by simpa using hbinary, hjson, hread⟩⟩
        · cases h
      | none =>
        -- what is no JSON is a stream or malformed
        cases hdeclared : Text.contains "json" (mediaType r.contentType) <;>
          (rw [hdeclared] at h; cases h)

/-- **A body that is built conforms to its schema**, and one that is refused
because of a shape does not. -/
theorem build_conforms (r : ResolvedRequest) :
    (∀ v g, sentJson? r = some v → (build r).outcome = .ok (some g) →
      ∀ s sh, Site.Reached r v s → s.shape = some sh →
        ∃ n, g.root.descendant? s.path = some n ∧ Admits sh n) ∧
    (∀ cause, (build r).outcome = .error (.shape cause) → ∃ v, sentJson? r = some v ∧
      ((∃ s, Site.Reached r v s ∧ s.Disagrees) ∨ ObjectRefused r v)) := by
  constructor
  · intro v g hv hg s sh hs hsh
    rw [outcome_build hv] at hg
    obtain ⟨g', hg', hsome⟩ := Outcome.map_eq_ok.1 hg
    obtain rfl := Option.some.inj hsome
    have hroot : ((Site.root r v).node r).outcome = .ok g'.root := by
      rw [← Site.outcome_ofJson, hg']
      rfl
    obtain ⟨n, hn, hnode⟩ := Site.descendant?_of_reached hs hroot
    exact ⟨n, hn, Site.admits_of_reached hs hsh hnode⟩
  · intro cause h
    obtain ⟨v, hv⟩ := exists_sentJson?_of_build h
    rw [outcome_build hv] at h
    have hroot : ((Site.root r v).node r).outcome = .error (.shape cause) := by
      rw [← Site.outcome_ofJson]
      exact Outcome.map_eq_error.2 (Outcome.map_eq_error.1 h)
    exact ⟨v, hv, Site.exists_fault_of_reached .refl hroot⟩

/-- A request for an operation that takes a collection of collections. -/
def rowsRequest (octets : Bytes) : ResolvedRequest where
  method := .post
  version := "v1.0"
  path := "/rows"
  template := "/rows"
  segments := [PathSegment.literal "rows"]
  operation :=
    { method := .post
      requestSchema := some { kind := .array, items := some { kind := .array } } }
  query := []
  headers := []
  contentType := none
  body := some octets
  index := default

/-- The body `[[]]` conforms and the body `[1]` does not. -/
theorem build_conforms_rows :
    (sentJson? (rowsRequest [0x5B, 0x5B, 0x5D, 0x5D]) = some (.arr [.arr []]) ∧
      (build (rowsRequest [0x5B, 0x5B, 0x5D, 0x5D])).outcome =
        .ok (some ⟨.array none [.array none []], none⟩) ∧
      Site.Reached (rowsRequest [0x5B, 0x5B, 0x5D, 0x5D]) (.arr [.arr []])
        ⟨[0], some { kind := .array }, none, "row", .arr []⟩ ∧
      ∃ n, (BodyNode.array none [.array none []]).descendant? [0] = some n ∧
        Admits { kind := .array } n) ∧
    (build (rowsRequest [0x5B, 0x31, 0x5D])).outcome =
        .error (.shape (.valueForCollection "row" "int")) ∧
      ∃ v, sentJson? (rowsRequest [0x5B, 0x31, 0x5D]) = some v ∧
        ((∃ s, Site.Reached (rowsRequest [0x5B, 0x31, 0x5D]) v s ∧ s.Disagrees) ∨
          ObjectRefused (rowsRequest [0x5B, 0x31, 0x5D]) v) := by
  have hsite : Site.Reached (rowsRequest [0x5B, 0x5B, 0x5D, 0x5D]) (.arr [.arr []])
      ⟨[0], some { kind := .array }, none, "row", .arr []⟩ :=
    .single (.element (i := 0) rfl rfl rfl)
  refine ⟨⟨rfl, rfl, hsite, ?_⟩, rfl, ?_⟩
  · exact (build_conforms (rowsRequest [0x5B, 0x5B, 0x5D, 0x5D])).1 (.arr [.arr []])
      ⟨.array none [.array none []], none⟩ rfl rfl _ _ hsite rfl
  · exact (build_conforms (rowsRequest [0x5B, 0x31, 0x5D])).2 _ rfl

end Body

end ApiSnippets
