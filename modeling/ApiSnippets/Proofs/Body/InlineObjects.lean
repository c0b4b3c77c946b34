import ApiSnippets.Proofs.Body.Conformance
/-!
# Objects without a type name

Where an object is declared and something else is sent, only a type name makes
the position refuse it. The shape of an object that is written out in place
says nothing about other values than its formats: a collection is read there as
if nothing was declared, and a value without parts always has a leaf
(`only_names_refuse`).
-/

namespace ApiSnippets

namespace Body

variable {ix : Index} {r : ResolvedRequest} {s : Site} {sh : Shape} {v : Json}
  {near : Option String} {hint name : String}

/-- The fault of a value where an object of a named type is declared. -/
def objectFault (hint name : String) : Json → ShapeFault
  | .arr _ => .collectionForObject hint name
  | v => .valueForObject hint name (typeNameOf v)

/-- That an object is declared where something else is sent, null apart. -/
structure Site.Misfits (s : Site) (sh : Shape) : Prop where
  shape : s.shape = some sh
  kind : sh.kind = .object
  ne_null : s.value ≠ .null
  ne_obj : ∀ members, s.value ≠ .obj members

/-! ## Named types -/

theorem leafFault_of_objectName? (hname : sh.objectName? = some name) :
    leafFault (some sh) hint v = some (.valueForObject hint name (typeNameOf v)) := by
  simp [leafFault, hname]

/-- A type name refuses everything but objects and null. -/
theorem value_of_objectName? (hname : sh.objectName? = some name) (hnull : v ≠ .null)
    (hobj : ∀ members, v ≠ .obj members) :
    (value ix (some sh) near hint v).outcome = .error (.shape (objectFault hint name v)) := by
  cases v with
  | null => exact absurd rfl hnull
  | obj members => exact absurd rfl (hobj members)
  | arr items =>
    rw [value]
    simp [hname, objectFault]
  | bool _ | int _ | num _ | str _ =>
    rw [value, leafFault_of_objectName? hname]
    rfl

/-! ## Inline objects -/

theorem leafFault_of_inline (hkind : sh.kind = .object) (hname : sh.objectName? = none) :
    leafFault (some sh) hint v = none := by
  simp [leafFault, hname, isCollection, hkind]

/-- A text where an object is declared is typed by the formats alone. -/
theorem exists_textNode_of_inline (hkind : sh.kind = .object) (text : String) :
    ∃ n, (textNode ix (some sh) hint text).outcome = .ok n ∧ n.children = [] := by
  have henum : sh.kind ≠ .enum := by simp [hkind]
  unfold textNode
  simp only [henum, if_false]
  split
  · exact ⟨_, rfl, rfl⟩
  · split
    · exact ⟨_, rfl, rfl⟩
    · split <;> exact ⟨_, rfl, rfl⟩

/-- A value without parts is read as a leaf. -/
theorem exists_leaf_of_inline (hkind : sh.kind = .object) (hname : sh.objectName? = none)
    (hplain : isPlain v = true) :
    ∃ n, (value ix (some sh) near hint v).outcome = .ok n ∧ n.children = [] := by
  cases v with
  | null | obj _ | arr _ => cases hplain
  | bool _ | int _ | num _ =>
    rw [value, leafFault_of_inline hkind hname]
    exact ⟨_, rfl, rfl⟩
  | str t =>
    rw [value, leafFault_of_inline hkind hname]
    exact exists_textNode_of_inline hkind t

namespace Site

/-- A site that misfits is read as its value is, by its shape. -/
theorem Misfits.outcome_node (h : s.Misfits sh) :
    (s.node r).outcome = (Body.value r.index (some sh) s.near s.hint s.value).outcome := by
  rw [node_of_ne_obj h.ne_obj, h.shape]

/-- A collection is read as if nothing was declared. -/
theorem Misfits.outcome_node_arr (h : s.Misfits sh) (hname : sh.objectName? = none)
    {items : List Json} (hitems : s.value = .arr items) :
    (s.node r).outcome = (untypedAll r.index s.near items).outcome.map
      fun elements => .array (itemType none elements) elements := by
  have hsilent : s.shape.bind Shape.objectName? = none := by rw [h.shape, Option.bind_some, hname]
  have hitem : itemShape s.shape = none := by simp [itemShape, h.shape, h.kind]
  rw [Site.outcome_node_arr hitems hsilent, hitem, outcome_valueAll_none]

/-- Without a type name a site that misfits does not disagree with its shape. -/
theorem Misfits.not_disagrees (h : s.Misfits sh) (hname : sh.objectName? = none) :
    ¬ s.Disagrees := by
  have hshape : ∀ sh', s.shape = some sh' → sh' = sh := by
    intro sh' hsh'
    exact Option.some.inj (hsh'.symm.trans h.shape)
  rintro (⟨hsh, hkind, -, -⟩ | ⟨hsh, hsome, -, -⟩)
  · rw [hshape _ hsh, h.kind] at hkind
    cases hkind
  · rw [hshape _ hsh, hname] at hsome
    cases hsome

/-- A fault there is the fault of an element. -/
theorem Misfits.exists_child_of_fault (h : s.Misfits sh) (hname : sh.objectName? = none)
    {cause : ShapeFault} (hfault : (s.node r).outcome = .error (.shape cause)) :
    ∃ c, Child r s c ∧ (c.node r).outcome = .error (.shape cause) := by
  cases blames_of_node hfault with
  | here hdis => exact absurd hdis (h.not_disagrees hname)
  | root _ hrefused =>
    obtain ⟨members, -, hvalue, -⟩ := hrefused
    exact absurd hvalue (h.ne_obj members)
  | below hchild _ hc => exact ⟨_, hchild, hc⟩

end Site

/-! ## Positions of a body -/

theorem exists_node_of_build {g : BodyGraph} (hsent : sentJson? r = some v)
    (hs : Site.Reached r v s) (hbuild : (build r).outcome = .ok (some g)) :
    ∃ n, g.root.descendant? s.path = some n ∧ (s.node r).outcome = .ok n := by
  rw [outcome_build hsent] at hbuild
  obtain ⟨g', hg', hsome⟩ := Outcome.map_eq_ok.1 hbuild
  obtain rfl := Option.some.inj hsome
  have hroot : ((Site.root r v).node r).outcome = .ok g'.root := by
    rw [← Site.outcome_ofJson, hg']
    rfl
  exact Site.descendant?_of_reached hs hroot

/-- **Only a type name refuses what is no object.** Where an object is declared
and something else is sent, null apart, a type name is a fault of its own and
there is no graph. An object that is declared in place has no fault of its own:
a collection is there as if nothing was declared, a value without parts is
there as a leaf, and what is refused is a part of an element. -/
theorem only_names_refuse (hsent : sentJson? r = some v) (hs : Site.Reached r v s)
    (h : s.Misfits sh) :
    (∀ name, sh.objectName? = some name →
      (s.node r).outcome = .error (.shape (objectFault s.hint name s.value)) ∧
        ∃ e, (build r).outcome = .error e) ∧
    (sh.objectName? = none →
      (∀ items, s.value = .arr items →
        (s.node r).outcome = (untypedAll r.index s.near items).outcome.map
          fun elements => .array (itemType none elements) elements) ∧
      (isPlain s.value = true → ∃ n, (s.node r).outcome = .ok n ∧ n.children = []) ∧
      (∀ cause, (s.node r).outcome = .error (.shape cause) →
        ∃ c, Site.Child r s c ∧ (c.node r).outcome = .error (.shape cause)) ∧
      ∀ g, (build r).outcome = .ok (some g) →
        ∃ n, g.root.descendant? s.path = some n ∧ (s.node r).outcome = .ok n) := by
  constructor
  · intro name hname
    have hfault : (s.node r).outcome = .error (.shape (objectFault s.hint name s.value)) := by
      rw [h.outcome_node]
      exact value_of_objectName? hname h.ne_null h.ne_obj
    refine ⟨hfault, ?_⟩
    cases hbuild : (build r).outcome with
    | error e => exact ⟨e, rfl⟩
    | ok g? =>
      have hmap := outcome_build hsent
      rw [hbuild] at hmap
      obtain ⟨g, -, rfl⟩ := Outcome.map_eq_ok.1 hmap.symm
      obtain ⟨n, -, hn⟩ := exists_node_of_build hsent hs hbuild
      rw [hfault] at hn
      cases hn
  · intro hname
    refine ⟨fun items hitems => h.outcome_node_arr hname hitems, fun hplain => ?_,
      fun cause hfault => h.exists_child_of_fault hname hfault,
      fun g hbuild => exists_node_of_build hsent hs hbuild⟩
    rw [h.outcome_node]
    exact exists_leaf_of_inline h.kind hname hplain

/-- A request for an action that takes an object declared in place. -/
def inlineRequest (octets : Bytes) : ResolvedRequest where
  method := .post
  version := "v1.0"
  path := "/ns.send"
  template := "/ns.send"
  segments := [⟨.action "send" [], none⟩]
  operation :=
    { method := .post
      requestSchema := some { kind := .object, properties := [("subject", { kind := .string })] } }
  query := []
  headers := []
  contentType := none
  body := some octets
  index := default

/-- The body `[1]` is a collection in spite of the shape. -/
theorem only_names_refuse_send :
    sentJson? (inlineRequest [0x5B, 0x31, 0x5D]) = some (.arr [.int 1]) ∧
      (Site.root (inlineRequest [0x5B, 0x31, 0x5D]) (.arr [.int 1])).Misfits
        { kind := .object, properties := [("subject", { kind := .string })] } ∧
      (build (inlineRequest [0x5B, 0x31, 0x5D])).outcome = .ok (some
        ⟨.array (some (.number ⟨false, false⟩)) [.number (.int 1) ⟨false, false⟩], none⟩) ∧
      ∃ n, (BodyNode.array (some (.number ⟨false, false⟩))
          [.number (.int 1) ⟨false, false⟩]).descendant? [] = some n ∧
        ((Site.root (inlineRequest [0x5B, 0x31, 0x5D]) (.arr [.int 1])).node
          (inlineRequest [0x5B, 0x31, 0x5D])).outcome = .ok n := by
  have hsent : sentJson? (inlineRequest [0x5B, 0x31, 0x5D]) = some (.arr [.int 1]) := rfl
  have hmisfits : (Site.root (inlineRequest [0x5B, 0x31, 0x5D]) (.arr [.int 1])).Misfits
      { kind := .object, properties := [("subject", { kind := .string })] } :=
    ⟨rfl, rfl, by simp [Site.root], by simp [Site.root]⟩
  have hbuild : (build (inlineRequest [0x5B, 0x31, 0x5D])).outcome = .ok (some
      ⟨.array (some (.number ⟨false, false⟩)) [.number (.int 1) ⟨false, false⟩], none⟩) := by
    rw [outcome_build hsent]
    cbv
  obtain ⟨-, -, -, hbuilt⟩ := (only_names_refuse hsent .refl hmisfits).2 rfl
  exact ⟨hsent, hmisfits, hbuild, hbuilt _ hbuild⟩

end Body

end ApiSnippets
