import ApiSnippets.Proofs.Body.Sites
/-!
# Types that objects name for themselves

An object is read in a frame: the one that its place declares, or, where its
place declares none, the one of the type that it names for itself
(`Site.declared?`, `untypedFrame?`). The type that the object names is then
looked up from that frame, so where nothing is declared it is looked up twice,
and beside the first look-up the second one has nothing to say
(`Site.outcome_plan`).
-/

namespace ApiSnippets

/-- That a value is inside another one, at any depth. What is inside of a
reference or of the member that names a type is left out. -/
inductive Json.Inside (whole : Json) : Json → Prop
  | self : Inside whole whole
  | element {items : List Json} {v : Json} :
      Inside whole (.arr items) → v ∈ items → Inside whole v
  | member {members : List (String × Json)} {name : String} {v : Json} :
      Inside whole (.obj members) → (name, v) ∈ members → name ≠ Annotated.idMember →
      name ≠ Annotated.typeMember → Inside whole v

namespace Body

open Annotated (typeMember idMember)

variable {ix : Index} {f : Frame} {members : List (String × Json)}

/-! ## Frames before the object's own type -/

/-- The frame of a type of the schema. -/
def frameOf (ix : Index) (type : TypeRef) : Outcome Frame := do
  let properties ← propertiesOf ix type
  pure ⟨type, false, true, properties⟩

/-- The frame that a shape declares for an object, none when it is silent about
objects. -/
def declaredFrame? (ix : Index) (shape : Option Shape) (hint : String) : Outcome (Option Frame) :=
  match shape with
  | none => .ok none
  | some sh =>
    match sh.objectName? with
    | some name => do
      let type ← typeRefOf ix name
      some <$> frameOf ix type
    | none =>
      if sh.properties.isEmpty then .ok none
      else
        let name := Naming.pascal ((sh.title.filter (· ≠ "")).getD hint)
        .ok (some ⟨{ name := name, synthesized := true }, false, true, sh.properties⟩)

/-- The frame of the type that an object names for itself where nothing is
declared, none when the index does not know that type. -/
def untypedFrame? (ix : Index) (near : Option String) (members : List (String × Json)) :
    Outcome (Option Frame) :=
  match members.lookup typeMember with
  | some (.str name) => do
    match ← objectType? ix (String.ofList (name.toList.dropWhile (· == '#'))) near with
    | some t => some <$> frameOf ix (TypeRef.ofName t.name)
    | none => pure none
  | _ => .ok none

/-- The frame that a site declares for its object. The whole body has one
always. -/
def Site.declared? (r : ResolvedRequest) (s : Site) (members : List (String × Json)) :
    Outcome (Option Frame) :=
  if s.path.isEmpty ∧ (s.shape.bind Shape.objectName?).isNone then
    .ok (some (synthesizedFrame r.index r s.shape members))
  else declaredFrame? r.index s.shape s.hint

/-- The frame of an object with its own type, after the frame without it. -/
def refined (ix : Index) (members : List (String × Json)) : Option Frame → Outcome ObjectPlan
  | some f => (ownType? ix f members).map fun t => .frame (f.retyped t)
  | none => .ok .untyped

/-! ## Plans -/

theorem outcome_frame_refine (ix : Index) (f : Frame) (members : List (String × Json)) :
    (ObjectPlan.frame <$> Frame.refine ix f members).outcome = refined ix members (some f) := by
  rw [Noted.outcome_map, outcome_refine, refined]
  cases ownType? ix f members <;> rfl

theorem outcome_frame_namedFrame (ix : Index) (type : TypeRef) (members : List (String × Json)) :
    (ObjectPlan.frame <$> namedFrame ix type members).outcome =
      (some <$> frameOf ix type) >>= refined ix members := by
  rw [Noted.outcome_map, namedFrame, Noted.outcome_bind, Noted.outcome_ofOutcome, frameOf]
  cases propertiesOf ix type with
  | error e => rfl
  | ok properties =>
    show (Frame.refine ix ⟨type, false, true, properties⟩ members).outcome.map _ = _
    rw [← Noted.outcome_map, outcome_frame_refine]
    rfl

theorem outcome_planObject {shape : Option Shape} {hint : String}
    (h : isCollection shape = false) : (planObject ix shape hint members).outcome =
      declaredFrame? ix shape hint >>= refined ix members := by
  unfold planObject declaredFrame?
  rw [if_neg (by simp [h])]
  cases shape with
  | none => rfl
  | some sh =>
    simp only
    cases sh.objectName? with
    | some name =>
      simp only [Noted.outcome_bind, Noted.outcome_ofOutcome]
      cases typeRefOf ix name with
      | error e => rfl
      | ok type => exact outcome_frame_namedFrame ix type members
    | none =>
      simp only
      split
      · rfl
      · exact outcome_frame_refine _ _ _

theorem outcome_planUntyped {near : Option String} : (planUntyped ix near members).outcome =
    untypedFrame? ix near members >>= refined ix members := by
  unfold planUntyped untypedFrame?
  cases members.lookup typeMember with
  | none => rfl
  | some v =>
    cases v with
    | str name =>
      simp only [Noted.outcome_bind, Noted.outcome_ofOutcome]
      cases objectType? ix (String.ofList (name.toList.dropWhile (· == '#'))) near with
      | error e => rfl
      | ok t =>
        cases t with
        | none => rfl
        | some t => exact outcome_frame_namedFrame ix (TypeRef.ofName t.name) members
    | _ => rfl

/-- The frame of the whole body, when it is read at all. -/
theorem exists_frame_of_rootFrame {r : ResolvedRequest} {v : Json} {plan : ObjectPlan}
    (h : (ObjectPlan.frame <$> rootFrame r.index r members).outcome = .ok plan) :
    ∃ f, (Site.root r v).declared? r members = .ok (some f) ∧
      refined r.index members (some f) = .ok plan := by
  simp only [Site.declared?, Site.root, List.isEmpty_nil, true_and]
  cases hshape : r.operation.requestSchema with
  | none =>
    simp only [rootFrame, hshape, Option.bind_none] at h
    rw [outcome_frame_refine] at h
    exact ⟨_, rfl, h⟩
  | some sh =>
    cases hname : sh.objectName? with
    | none =>
      simp only [rootFrame, hshape, Option.bind_some, hname] at h
      simp only [Option.bind_some, hname, Option.isNone_none, if_true]
      split at h
      · rw [outcome_frame_refine] at h
        exact ⟨_, rfl, h⟩
      · cases h
    | some name =>
      simp only [rootFrame, hshape, Option.bind_some, hname] at h
      simp only [declaredFrame?, Option.bind_some, hname, Option.isNone_some, Bool.false_eq_true,
        if_false]
      obtain ⟨g, hg, rfl⟩ := Noted.outcome_map_eq_ok.1 h
      obtain ⟨type, htype, hg⟩ := Noted.outcome_bind_eq_ok.1 hg
      rw [Noted.outcome_ofOutcome] at htype
      have hnamed := outcome_frame_namedFrame r.index type members
      rw [Noted.outcome_map, hg] at hnamed
      obtain ⟨found, hfound, hplan⟩ := Outcome.bind_eq_ok.1 hnamed.symm
      obtain ⟨f, hf, rfl⟩ := Outcome.map_eq_ok.1 hfound
      exact ⟨f, by rw [htype]; exact hfound, hplan⟩

namespace Site

variable {r : ResolvedRequest} {s : Site} {n : BodyNode} {plan : ObjectPlan}
  {t : TypeDescriptor} {v : Json}

/-- The frame of an object before its own type: that of its site, or else that
of the type that it names for itself. -/
def frame? (r : ResolvedRequest) (s : Site) (members : List (String × Json)) :
    Outcome (Option Frame) := do
  match ← s.declared? r members with
  | some f => pure (some f)
  | none => untypedFrame? r.index s.near members

/-- The only site without a way is that of the whole body. -/
theorem eq_root_of_reached (h : Reached r v s) (hpath : s.path = []) : s = root r v := by
  cases h with
  | refl => rfl
  | tail _ hchild => cases hchild <;> simp [Frame.site] at hpath

/-- **How an object is read**, when it is read at all: in the frame that it has
before its own type, with its own type in the place of that frame's. -/
theorem outcome_plan (hs : Reached r v s) (hplan : (s.plan r members).outcome = .ok plan)
    (hfault : ∀ cause, plan ≠ .fault cause) :
    s.frame? r members >>= refined r.index members = .ok plan := by
  -- the whole body has the frame of its declaration, every other object that of its site
  unfold Site.plan at hplan
  by_cases hpath : s.path = []
  · obtain rfl := eq_root_of_reached hs hpath
    rw [if_pos (by simp [root])] at hplan
    obtain ⟨f, hf, hrefined⟩ := exists_frame_of_rootFrame (v := v) hplan
    simp only [frame?, hf]
    exact hrefined
  · have hempty : s.path.isEmpty = false := by simpa using hpath
    simp only [hempty, Bool.false_eq_true, if_false] at hplan
    obtain ⟨first, hfirst, hplan⟩ := Noted.outcome_bind_eq_ok.1 hplan
    simp only [frame?, declared?, hempty, Bool.false_eq_true, if_false, false_and]
    cases hcoll : isCollection s.shape with
    | true =>
      simp only [planObject, hcoll, if_true] at hfirst
      obtain rfl := Noted.outcome_pure_eq_ok.1 hfirst
      obtain rfl := Noted.outcome_pure_eq_ok.1 hplan
      exact absurd rfl (hfault _)
    | false =>
      rw [outcome_planObject hcoll] at hfirst
      obtain ⟨f, hf, hfirst⟩ := Outcome.bind_eq_ok.1 hfirst
      rw [hf]
      cases f with
      | some f =>
        obtain ⟨t, ht, rfl⟩ := Outcome.map_eq_ok.1 hfirst
        obtain rfl := Noted.outcome_pure_eq_ok.1 hplan
        exact hfirst
      | none =>
        obtain rfl := Except.ok.inj hfirst
        rw [outcome_planUntyped] at hplan
        exact hplan

/-- An object that has a node had a plan. -/
theorem exists_plan_of_node (hvalue : s.value = .obj members) (hn : (s.node r).outcome = .ok n) :
    ∃ plan, (s.plan r members).outcome = .ok plan ∧
      (plan.node r.index s.near members).outcome = .ok n := by
  unfold node at hn
  rw [hvalue] at hn
  exact Noted.outcome_bind_eq_ok.1 hn

/-- **The node of an object that names its own type**: it is of that type, and
derived unless this is the name of the frame's type already. -/
theorem exists_object_of_frame? (hs : Reached r v s) (hvalue : s.value = .obj members)
    (hn : ((root r v).node r).outcome = .ok n) {f : Frame}
    (hf : s.frame? r members = .ok (some f)) (ht : ownType? r.index f members = .ok (some t)) :
    ∃ ms, n.descendant? s.path =
      some (.object (TypeRef.ofName t.name) ms (t.name != f.type.name)) := by
  obtain ⟨m, hm, hnode⟩ := descendant?_of_reached hs hn
  obtain ⟨plan, hplan, hread⟩ := exists_plan_of_node hvalue hnode
  have hfault : ∀ cause, plan ≠ .fault cause := by
    rintro cause rfl
    cases hread
  have hrefined := outcome_plan hs hplan hfault
  rw [hf] at hrefined
  have hrefined : refined r.index members (some f) = .ok plan := hrefined
  rw [refined, ht] at hrefined
  obtain rfl : .frame (f.retyped (some t)) = plan := Except.ok.inj hrefined
  obtain ⟨placed, -, rfl⟩ := Noted.outcome_map_eq_ok.1 hread
  exact ⟨arrange placed, hm⟩

/-- An array is read by its elements only where no object is declared. -/
theorem objectName?_of_arr {items : List Json} (hvalue : s.value = .arr items)
    (hn : (s.node r).outcome = .ok n) : s.shape.bind Shape.objectName? = none := by
  unfold node at hn
  rw [hvalue] at hn
  simp only [Body.value] at hn
  cases hname : s.shape.bind Shape.objectName? with
  | none => rfl
  | some name =>
    rw [hname] at hn
    cases hn

/-- **Every value inside a body has a site**, once the body is read. -/
theorem exists_reached_of_inside {w : Json} (hn : ((root r v).node r).outcome = .ok n)
    (h : v.Inside w) : ∃ s, Reached r v s ∧ s.value = w := by
  induction h with
  | self => exact ⟨root r v, .refl, rfl⟩
  | @element items w _ hmem ih =>
    obtain ⟨s, hs, hvalue⟩ := ih
    obtain ⟨m, -, hnode⟩ := descendant?_of_reached hs hn
    obtain ⟨i, hi⟩ := List.mem_iff_getElem?.1 hmem
    exact ⟨_, hs.tail (.element hvalue (objectName?_of_arr hvalue hnode) hi), rfl⟩
  | @member members name w _ hmem hid htype ih =>
    obtain ⟨s, hs, hvalue⟩ := ih
    obtain ⟨m, -, hnode⟩ := descendant?_of_reached hs hn
    obtain ⟨plan, hplan, hread⟩ := exists_plan_of_node hvalue hnode
    -- the plan of the object above says at which kind of site its member is
    cases plan with
    | fault cause => cases hread
    | untyped =>
      obtain ⟨i, hi⟩ := List.mem_iff_getElem?.1 hmem
      exact ⟨_, hs.tail (.entry hvalue hplan hi), rfl⟩
    | frame f =>
      cases hstays : f.stays name with
      | true =>
        have hstaying : (name, w) ∈ f.staying members :=
          List.mem_filter.2 ⟨hmem, by simp [htype, hstays]⟩
        obtain ⟨i, hi⟩ := List.mem_iff_getElem?.1 hstaying
        exact ⟨_, hs.tail (.staying hvalue hplan hi (mt roleOf_eq_id.1 hid)), rfl⟩
      | false =>
        have hleaving : (name, w) ∈ f.leaving members :=
          List.mem_filter.2 ⟨hmem, by simp [htype, hstays]⟩
        obtain ⟨i, hi⟩ := List.mem_iff_getElem?.1 hleaving
        exact ⟨_, hs.tail (.leaving hvalue hplan hi), rfl⟩

end Site

end Body

end ApiSnippets
