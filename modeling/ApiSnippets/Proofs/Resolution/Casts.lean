import ApiSnippets.Proofs.Resolution.Keys
import ApiSnippets.Proofs.Schema.Described
import ApiSnippets.Proofs.Text.Case
/-!
# Casts and keys

What becomes of a segment that names no child where a placeholder waits. It is
a type cast when it is looked up as a type, and the look-up is the lenient one
that serves every name of a type: a dotted key whose last component is the
last component of some schema is taken for a cast to that schema
(`step_cast_or_key`). Only where no schema has that last component is every
dotted text a key.
-/

namespace ApiSnippets

open Text (sameLetters lastComponent)

/-! ## The component of a name -/

namespace Catalog

variable {c : Catalog} {name id : String}

/-- **The component a name leads to** when no namespace is near: the one with
this very name, else the last one with the name in another letter case, else
the least of those with its last component, provided that every name is a
text. -/
inductive Names (c : Catalog) (name : String) : String → Prop
  | itself : c.contains name = true → Names c name name
  | letters {id : String} {before after : List String} : c.contains name = false →
      c.ids = before ++ id :: after → sameLetters id name = true →
      (∀ other ∈ after, sameLetters other name = false) → Names c name id
  | component {id : String} : c.contains name = false →
      (∀ other ∈ c.ids, sameLetters other name = false) → c.hasOctetNames = false →
      id ∈ c.ids → sameLetters (lastComponent id) (lastComponent name) = true →
      (∀ other ∈ c.ids, sameLetters (lastComponent other) (lastComponent name) = true →
        id ≤ other) → Names c name id

theorem mem_candidates {ids : List String} : id ∈ candidates ids name ↔
    id ∈ ids ∧ sameLetters (lastComponent id) (lastComponent name) = true := by
  rw [candidates, List.mem_mergeSort, List.mem_filter]

theorem pairwise_candidates {ids : List String} : (candidates ids name).Pairwise (· ≤ ·) := by
  have hsorted : (candidates ids name).Pairwise fun a b => decide (a ≤ b) = true := by
    refine List.pairwise_mergeSort ?_ ?_ _
    · intro a b d hab hbd
      exact decide_eq_true (String.le_trans (of_decide_eq_true hab) (of_decide_eq_true hbd))
    · intro a b
      simpa using String.le_total a b
  exact hsorted.imp of_decide_eq_true

/-- The first candidate is the least one. -/
theorem head?_candidates {ids : List String} : (candidates ids name).head? = some id ↔
    (id ∈ ids ∧ sameLetters (lastComponent id) (lastComponent name) = true) ∧
      ∀ other ∈ ids, sameLetters (lastComponent other) (lastComponent name) = true →
        id ≤ other := by
  have hsorted : (candidates ids name).Pairwise (· ≤ ·) := pairwise_candidates
  simp only [← and_imp, ← mem_candidates]
  cases hcandidates : candidates ids name with
  | nil => simp
  | cons first more =>
    rw [hcandidates] at hsorted
    have hleast : ∀ other ∈ first :: more, first ≤ other := by
      intro other hother
      rcases List.mem_cons.1 hother with rfl | hmore
      · exact String.le_refl other
      · exact List.rel_of_pairwise_cons hsorted hmore
    rw [List.head?_cons, Option.some_inj]
    constructor
    · rintro rfl
      exact ⟨List.mem_cons_self, hleast⟩
    · rintro ⟨hmem, hid⟩
      exact String.le_antisymm (hleast id hmem) (hid first List.mem_cons_self)

/-- The last name with certain letters. -/
theorem find?_reverse_eq_some {ids : List String} :
    (ids.reverse.find? fun other => sameLetters other name) = some id ↔
      ∃ before after, ids = before ++ id :: after ∧ sameLetters id name = true ∧
        ∀ other ∈ after, sameLetters other name = false := by
  rw [List.find?_eq_some_iff_append]
  constructor
  · rintro ⟨hid, after, before, hids, hafter⟩
    refine ⟨before.reverse, after.reverse, by simpa using congrArg List.reverse hids, hid, ?_⟩
    intro other hother
    simpa using hafter other (List.mem_reverse.1 hother)
  · rintro ⟨before, after, rfl, hid, hafter⟩
    refine ⟨hid, after.reverse, before.reverse, by simp, ?_⟩
    intro other hother
    simpa using hafter other (List.mem_reverse.1 hother)

theorem find?_reverse_eq_none {ids : List String} :
    (ids.reverse.find? fun other => sameLetters other name) = none ↔
      ∀ other ∈ ids, sameLetters other name = false := by
  simp

/-- **A name is looked up as the component it leads to.** -/
theorem find?_eq_some_iff : c.find? name none = .ok (some id) ↔ Names c name id := by
  unfold find?
  constructor
  · intro h
    split at h
    · next hcontains =>
      obtain rfl := Option.some.inj (Except.ok.inj h)
      exact .itself hcontains
    · next hcontains =>
      rw [Bool.not_eq_true] at hcontains
      split at h
      · next found hfound =>
        obtain rfl := Option.some.inj (Except.ok.inj h)
        obtain ⟨before, after, hids, hid, hafter⟩ := find?_reverse_eq_some.1 hfound
        exact .letters hcontains hids hid hafter
      · next hnone =>
        split at h
        · cases h
        · next htexts =>
          obtain ⟨⟨hmem, hid⟩, hleast⟩ := head?_candidates.1 (Except.ok.inj h)
          rw [Bool.not_eq_true] at htexts
          exact .component hcontains (find?_reverse_eq_none.1 hnone) htexts hmem hid hleast
  -- each way to a component rules out those that are tried before it
  · rintro (hcontains | ⟨hcontains, hids, hid, hafter⟩ |
      ⟨hcontains, hnone, htexts, hmem, hid, hleast⟩)
    · rw [if_pos hcontains]
    · rw [hcontains, find?_reverse_eq_some.2 ⟨_, _, hids, hid, hafter⟩]
      rfl
    · rw [hcontains, find?_reverse_eq_none.2 hnone, htexts]
      exact congrArg Except.ok (head?_candidates.2 ⟨⟨hmem, hid⟩, hleast⟩)

/-- A name is not looked up where some name is in octets, unless it is the
whole name of a component. -/
theorem find?_eq_error_iff {e : Fault} : c.find? name none = .error e ↔
    e = .defect .type ∧ c.contains name = false ∧
      (∀ other ∈ c.ids, sameLetters other name = false) ∧ c.hasOctetNames = true := by
  unfold find?
  constructor
  · intro h
    split at h
    · cases h
    · next hcontains =>
      split at h
      · cases h
      · next hnone =>
        split at h
        · next hoctets =>
          cases h
          exact ⟨rfl, by simpa using hcontains, find?_reverse_eq_none.1 hnone, hoctets⟩
        · cases h
  · rintro ⟨rfl, hcontains, hnone, hoctets⟩
    rw [hcontains, find?_reverse_eq_none.2 hnone, hoctets]
    rfl

/-- The component that a name leads to has the letters of the name, or at
least those of its last component. -/
theorem Names.sameLetters (h : Names c name id) : sameLetters id name = true ∨
    sameLetters (lastComponent id) (lastComponent name) = true := by
  cases h with
  | itself => exact .inl (beq_self_eq_true _)
  | letters _ _ hid => exact .inl hid
  | component _ _ _ _ hid => exact .inr hid

/-- Where some component has the letters of the whole name, the name leads to
such a component. -/
theorem Names.sameLetters_of_exists (h : Names c name id)
    (hwhole : ∃ other ∈ c.ids, Text.sameLetters other name = true) :
    Text.sameLetters id name = true := by
  cases h with
  | itself => exact beq_self_eq_true _
  | letters _ _ hid => exact hid
  | component _ hnone =>
    obtain ⟨other, hother, hname⟩ := hwhole
    simp [hnone other hother] at hname

/-- Where nothing stands in place of the schemas, a name leads to one of
them. -/
theorem Names.mem_ids (h : Names c name id) (hschemas : c.standIn = none) : id ∈ c.ids := by
  cases h with
  | itself hcontains => simpa [contains, hschemas] using hcontains
  | letters _ hids => simp [hids]
  | component _ _ _ hmem => exact hmem

/-- Whether a component describes a type. -/
def IsType (c : Catalog) (id : String) : Prop :=
  ∃ t, c.buildType id [] List.not_mem_nil = .ok (some t)

theorem standIn_of_isType (h : c.IsType id) : c.standIn = none := by
  obtain ⟨t, ht⟩ := h
  by_contra hstandIn
  rw [buildType, if_pos (Option.isSome_iff_ne_none.2 hstandIn)] at ht
  cases ht

end Catalog

/-! ## Segments that are looked up as types -/

namespace Index

variable {ix : Index} {token type : String}

/-- A dotted name that is no call. -/
def IsDotted (token : String) : Prop :=
  '.' ∈ token.toList ∧ '(' ∉ token.toList

/-- A name without the hash signs in front of it. -/
def unhashed (token : String) : String :=
  String.ofList (token.toList.dropWhile (· == '#'))

theorem lastComponent_unhashed (h : '.' ∈ token.toList) :
    lastComponent (unhashed token) = lastComponent token := by
  obtain ⟨before, after, htoken, hafter⟩ := Text.exists_afterLast h
  have hdrop : (before ++ '.' :: after).dropWhile (· == '#') =
      before.dropWhile (· == '#') ++ '.' :: after :=
    Text.dropWhile_append_stop (by decide)
  rw [lastComponent, lastComponent, unhashed, String.toList_ofList, htoken, hdrop,
    Text.afterLast_append hafter, Text.afterLast_append hafter]

instance : Decidable (IsDotted token) :=
  inferInstanceAs (Decidable (_ ∧ _))

theorem typeCast?_of_not_isDotted (h : ¬ IsDotted token) : ix.typeCast? token = .ok none := by
  rw [typeCast?, if_neg]
  simpa [IsDotted, Text.hasChar] using h

theorem typeCast?_of_isDotted (h : IsDotted token) : ix.typeCast? token =
    (ix.describeType token none).map (Option.map (·.name)) := by
  rw [typeCast?, if_pos (by simpa [IsDotted, Text.hasChar] using h)]
  cases ix.describeType token none <;> rfl

theorem describeType_eq_bind : ix.describeType token none =
    ix.catalog.find? (unhashed token) none >>= fun id? =>
      match id? with
      | some id => ix.catalog.buildType id [] (by simp)
      | none => pure none :=
  rfl

/-- **A segment is looked up as a type** when it is a dotted name that leads
to a component with a type. -/
theorem typeCast?_eq_some_iff : ix.typeCast? token = .ok (some type) ↔
    IsDotted token ∧ ix.catalog.Names (unhashed token) type ∧ ix.catalog.IsType type := by
  by_cases hdotted : IsDotted token
  · rw [typeCast?_of_isDotted hdotted, describeType_eq_bind]
    simp only [hdotted, true_and]
    constructor
    · intro h
      obtain ⟨t?, ht, hname⟩ := Outcome.map_eq_ok.1 h
      obtain ⟨t, rfl, rfl⟩ := Option.map_eq_some_iff.1 hname
      obtain ⟨id?, hid, ht⟩ := Outcome.bind_eq_ok.1 ht
      cases id? with
      | none => cases ht
      | some id =>
        obtain rfl := Catalog.name_of_buildType ht
        exact ⟨Catalog.find?_eq_some_iff.1 hid, t, ht⟩
    · rintro ⟨hid, t, ht⟩
      refine Outcome.map_eq_ok.2 ⟨some t, ?_, congrArg some (Catalog.name_of_buildType ht)⟩
      exact Outcome.bind_eq_ok.2 ⟨_, Catalog.find?_eq_some_iff.2 hid, ht⟩
  · simp [typeCast?_of_not_isDotted hdotted, hdotted]

/-- The fault of looking a segment up as a type: a name in octets that has no
last component, or what is wrong with the component that the name leads to. -/
inductive Unreadable (ix : Index) (token : String) : Fault → Prop
  | octets : IsDotted token → ix.catalog.contains (unhashed token) = false →
      (∀ other ∈ ix.catalog.ids, sameLetters other (unhashed token) = false) →
      ix.catalog.hasOctetNames = true → Unreadable ix token (.defect .type)
  | component {id : String} {e : Fault} : IsDotted token → ix.catalog.Names (unhashed token) id →
      ix.catalog.buildType id [] (by simp) = .error e → Unreadable ix token e

theorem typeCast?_eq_error_iff {e : Fault} :
    ix.typeCast? token = .error e ↔ Unreadable ix token e := by
  by_cases hdotted : IsDotted token
  · rw [typeCast?_of_isDotted hdotted, Outcome.map_eq_error, describeType_eq_bind,
      Outcome.bind_eq_error]
    constructor
    · rintro (hfind | ⟨id?, hid, ht⟩)
      · obtain ⟨rfl, hcontains, hnone, hoctets⟩ := Catalog.find?_eq_error_iff.1 hfind
        exact .octets hdotted hcontains hnone hoctets
      · cases id? with
        | none => cases ht
        | some id => exact .component hdotted (Catalog.find?_eq_some_iff.1 hid) ht
    · rintro (⟨-, hcontains, hnone, hoctets⟩ | ⟨-, hid, ht⟩)
      · exact .inl (Catalog.find?_eq_error_iff.2 ⟨rfl, hcontains, hnone, hoctets⟩)
      · exact .inr ⟨_, Catalog.find?_eq_some_iff.2 hid, ht⟩
  · rw [typeCast?_of_not_isDotted hdotted]
    constructor
    · intro h
      cases h
    · rintro (⟨h, -⟩ | ⟨h, -⟩) <;> exact absurd h hdotted

end Index

/-! ## Steps -/

namespace Resolution

open Index (IsDotted Unreadable unhashed)

variable {ix : Index} {p : Place} {child : PathNode} {path token type : String}

/-- That a segment is a cast of the one before it to a type. -/
structure IsCast (ix : Index) (p : Place) (token type : String) : Prop where
  follows : p.segments ≠ []
  dotted : IsDotted token
  names : ix.catalog.Names (unhashed token) type
  isType : ix.catalog.IsType type

theorem isCast_iff : IsCast ix p token type ↔
    p.segments ≠ [] ∧ ix.typeCast? token = .ok (some type) := by
  rw [Index.typeCast?_eq_some_iff]
  exact ⟨fun h => ⟨h.follows, h.dotted, h.names, h.isType⟩,
    fun ⟨hfollows, hdotted, hnames, htype⟩ => ⟨hfollows, hdotted, hnames, htype⟩⟩

theorem IsCast.type_eq {type' : String} (h : IsCast ix p token type)
    (h' : IsCast ix p token type') : type = type' :=
  Option.some.inj (Except.ok.inj ((isCast_iff.1 h).2.symm.trans (isCast_iff.1 h').2))

theorem IsCast.not_unreadable {e : Fault} (h : IsCast ix p token type) :
    ¬ Unreadable ix token e := by
  intro hfails
  have hcast := (isCast_iff.1 h).2
  rw [Index.typeCast?_eq_error_iff.2 hfails] at hcast
  cases hcast

/-- The place with its last segment cast to a type. -/
def Place.cast (p : Place) (type : String) : Place :=
  { p with segments := PathSegment.castLast type p.segments }

/-- The place below a placeholder. -/
def Place.capture (p : Place) (child : PathNode) (name : String) : Place :=
  ⟨child, p.segments ++ [PathSegment.ofPlaceholder name p.segments]⟩

theorem cast_inj {type' : String} (hfollows : p.segments ≠ [])
    (h : p.cast type = p.cast type') : type = type' := by
  have hlast := List.getLast?_eq_some_getLast hfollows
  have hsegments := congrArg (fun q : Place => q.segments.getLast?) h
  simpa [Place.cast, PathSegment.castLast, hlast] using hsegments

theorem enter_of_parameterName? {name : String} (h : child.parameterName? = some name) :
    Noted.outcome (p.enter child token) = .ok (p.capture child name) := by
  have hparameter : child.isParameter = true := by
    by_contra hnot
    simp [PathNode.parameterName?, hnot] at h
  have hne : ∀ s, PathNode.isPlaceholder s = false → child.segment ≠ s := by
    rintro s hs rfl
    rw [PathNode.isParameter, hs] at hparameter
    cases hparameter
  have hspecial : PathSegment.specialName? child.segment = none := by
    simp [PathSegment.specialName?, hne "$value" (by decide), hne "$count" (by decide)]
  rw [Place.enter, PathSegment.classify, if_neg (hne "$ref" (by decide)), hspecial]
  simp only [h]
  rfl

/-- No node is below itself. -/
theorem ne_node_of_placeholder? (h : p.node.placeholder? = some child) : child ≠ p.node := by
  have hlt := List.sizeOf_lt_of_mem (List.mem_of_find?_eq_some h)
  have hnode : sizeOf p.node.children < sizeOf p.node := by
    cases p.node
    simp only [PathNode.mk.sizeOf_spec]
    omega
  rintro rfl
  omega

/-- What a step does with a segment that names no child. -/
theorem outcome_step_of_unmatched (hmatch : p.node.match? token = none)
    (hchild : p.node.placeholder? = some child) :
    Noted.outcome (p.step ix path token) = ix.typeCast? token >>= fun type? =>
      match type?, p.segments.isEmpty with
      | some type, false => .ok (p.cast type)
      | _, _ => Noted.outcome (p.enter child token) := by
  rw [Place.step, hmatch]
  show Noted.outcome (Noted.ofOutcome (ix.typeCast? token) >>= _) = _
  rw [Noted.outcome_bind, Noted.outcome_ofOutcome]
  refine congrArg (_ >>= ·) (funext fun type? => ?_)
  cases type? with
  | none => simp only [hchild]
  | some type =>
    cases p.segments.isEmpty with
    | true => simp only [hchild]
    | false => rfl

/-- A step casts, fails or captures. -/
theorem step_cases (ix : Index) (path : String) (hmatch : p.node.match? token = none)
    (hchild : p.node.placeholder? = some child) {name : String}
    (hname : child.parameterName? = some name) :
    (∃ type, IsCast ix p token type ∧
      Noted.outcome (p.step ix path token) = .ok (p.cast type)) ∨
    (∃ e, Unreadable ix token e ∧ Noted.outcome (p.step ix path token) = .error e) ∨
    ((∀ type, ¬ IsCast ix p token type) ∧ (∀ e, ¬ Unreadable ix token e) ∧
      Noted.outcome (p.step ix path token) = .ok (p.capture child name)) := by
  rw [outcome_step_of_unmatched hmatch hchild, enter_of_parameterName? hname]
  simp only [isCast_iff, ← Index.typeCast?_eq_error_iff]
  cases hlookup : ix.typeCast? token with
  | error e => exact .inr (.inl ⟨e, rfl, rfl⟩)
  | ok type? =>
    by_cases hcast : p.segments ≠ [] ∧ ∃ type, type? = some type
    · obtain ⟨hfollows, type, rfl⟩ := hcast
      refine .inl ⟨type, ⟨hfollows, rfl⟩, ?_⟩
      simp [bind, Except.bind, List.isEmpty_eq_false_iff.2 hfollows]
    · refine .inr (.inr ⟨?_, by simp, ?_⟩)
      · rintro type ⟨hfollows, htype⟩
        exact hcast ⟨hfollows, type, Except.ok.inj htype⟩
      · cases type? with
        | none => rfl
        | some type =>
          have hfirst : p.segments = [] := by
            by_contra hfollows
            exact hcast ⟨hfollows, type, rfl⟩
          simp [bind, Except.bind, hfirst]

/-- **A segment that names no child is a cast or a key.** Where a placeholder
waits, the segment is a cast of the one before it exactly when it is a dotted
name that leads to a component with a type; it fails exactly when it cannot be
looked up; and it is captured by the placeholder otherwise. The component has
the letters of the segment if some component has, and at least those of its
last component. -/
theorem step_cast_or_key (hmatch : p.node.match? token = none)
    (hchild : p.node.placeholder? = some child) :
    (∀ type, Noted.outcome (p.step ix path token) = .ok (p.cast type) ↔
      IsCast ix p token type) ∧
    (∀ e, Noted.outcome (p.step ix path token) = .error e ↔ Unreadable ix token e) ∧
    ((∀ type, ¬ IsCast ix p token type) → (∀ e, ¬ Unreadable ix token e) →
      ∃ name, child.parameterName? = some name ∧
        Noted.outcome (p.step ix path token) = .ok (p.capture child name)) ∧
    ∀ type, IsCast ix p token type → type ∈ ix.catalog.ids ∧
      ((∃ id ∈ ix.catalog.ids, sameLetters id (unhashed token) = true) →
        sameLetters type (unhashed token) = true) ∧
      (sameLetters type (unhashed token) = true ∨
        sameLetters (lastComponent type) (lastComponent token) = true) := by
  obtain ⟨name, hname⟩ := exists_parameterName? (List.find?_some hchild)
  -- the step does one of three things, and no two of them are alike
  have hcases := step_cases ix path hmatch hchild hname
  refine ⟨fun type => ⟨fun hstep => ?_, fun hcast => ?_⟩,
    fun e => ⟨fun hstep => ?_, fun hfails => ?_⟩,
    fun hnone hreadable => ⟨name, hname, ?_⟩, fun type hcast => ?_⟩
  · rcases hcases with ⟨type', hcast, hstep'⟩ | ⟨e, -, hstep'⟩ | ⟨-, -, hstep'⟩
    · rwa [cast_inj hcast.follows (Except.ok.inj (hstep.symm.trans hstep'))]
    · rw [hstep] at hstep'
      cases hstep'
    · have hplace : p.cast type = p.capture child name := Except.ok.inj (hstep.symm.trans hstep')
      exact absurd (congrArg Place.node hplace).symm (ne_node_of_placeholder? hchild)
  · rcases hcases with ⟨type', hcast', hstep⟩ | ⟨e, hfails, -⟩ | ⟨hnone, -, -⟩
    · rwa [hcast.type_eq hcast']
    · exact absurd hfails hcast.not_unreadable
    · exact absurd hcast (hnone type)
  · rcases hcases with ⟨type, -, hstep'⟩ | ⟨e', hfails, hstep'⟩ | ⟨-, -, hstep'⟩
    · rw [hstep] at hstep'
      cases hstep'
    · rwa [Except.error.inj (hstep.symm.trans hstep')]
    · rw [hstep] at hstep'
      cases hstep'
  · rcases hcases with ⟨type, hcast, -⟩ | ⟨e', hfails', hstep⟩ | ⟨-, hreadable, -⟩
    · exact absurd hfails hcast.not_unreadable
    · have hlookup := Index.typeCast?_eq_error_iff.2 hfails
      rw [Index.typeCast?_eq_error_iff.2 hfails'] at hlookup
      rwa [← Except.error.inj hlookup]
    · exact absurd hfails (hreadable e)
  · rcases hcases with ⟨type, hcast, -⟩ | ⟨e, hfails, -⟩ | ⟨-, -, hstep⟩
    · exact absurd hcast (hnone type)
    · exact absurd hfails (hreadable e)
    · exact hstep
  · refine ⟨hcast.names.mem_ids (Catalog.standIn_of_isType hcast.isType),
      hcast.names.sameLetters_of_exists, ?_⟩
    exact Index.lastComponent_unhashed hcast.dotted.1 ▸ hcast.names.sameLetters

/-- A collection with a key, in an API with a type whose short name is also the
end of a key. -/
def dottedIndex : Index where
  catalog :=
    { document := .map [], schemas := [("ns.user", .map [(.text "type", .text "object")])] }
  root := usersIndex.root

/-- The place at that collection. -/
def atUsers : Place :=
  ⟨usersNode, [PathSegment.literal "users"]⟩

theorem step_cast_or_key_users : ∃ child,
    (usersNode.match? "alice.user" = none ∧ usersNode.match? "alice.smith" = none ∧
      usersNode.placeholder? = some child) ∧
    Noted.outcome (atUsers.step dottedIndex "/users/alice.user" "alice.user") =
      .ok (atUsers.cast "ns.user") ∧
    Noted.outcome (atUsers.step dottedIndex "/users/alice.smith" "alice.smith") =
      .ok (atUsers.capture child "id") := by
  refine ⟨_, ⟨rfl, rfl, rfl⟩, ?_, ?_⟩
  · have hcast : Noted.outcome (atUsers.step dottedIndex "/users/alice.user" "alice.user") =
        .ok (atUsers.cast "ns.user") ↔ IsCast dottedIndex atUsers "alice.user" "ns.user" :=
      (step_cast_or_key rfl rfl).1 "ns.user"
    refine hcast.2 (isCast_iff.2 ⟨by simp [atUsers], ?_⟩)
    cbv
  · have hlookup : dottedIndex.typeCast? "alice.smith" = .ok none := by cbv
    have hnone : ∀ type, ¬ IsCast dottedIndex atUsers "alice.smith" type := by
      simp [isCast_iff, hlookup]
    have hreadable : ∀ e, ¬ Unreadable dottedIndex "alice.smith" e := by
      simp [← Index.typeCast?_eq_error_iff, hlookup]
    obtain ⟨name, hname, hstep⟩ := (step_cast_or_key rfl rfl).2.2.1 hnone hreadable
    obtain rfl : "id" = name := Option.some.inj hname
    exact hstep

end Resolution

end ApiSnippets
