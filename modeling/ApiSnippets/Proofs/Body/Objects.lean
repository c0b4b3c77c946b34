import Mathlib.Data.List.Forall2
import ApiSnippets.Body.Root
import ApiSnippets.Proofs.Outcome
/-!
# What an object makes of its members

Which members of a JSON object stay with it and under which name, and which go
to its additional data, said without the walk over the values (`ObjectOf`).
An object is read in a frame, in which its own type has been taken into
account before any member is placed (`outcome_refine`); members that are
placed one by one are then arranged as `ObjectOf` says (`objectOf_of_placed`).
-/

namespace ApiSnippets

namespace Body

open Annotated (typeMember idMember)

/-! ## The frame of an object -/

/-- The type that an object names for itself, when objects can have it. -/
def ownType? (ix : Index) (f : Frame) (members : List (String × Json)) :
    Outcome (Option TypeDescriptor) :=
  match ((members.lookup typeMember).bind Annotated.overrideOf).filter (· ≠ "") with
  | none => .ok none
  | some name => objectType? ix name f.near

/-- The frame with the type that an object names for itself in the place of
its own. -/
def Frame.retyped (f : Frame) : Option TypeDescriptor → Frame
  | none => f
  | some t => ⟨TypeRef.ofName t.name, t.name != f.type.name, true, t.properties⟩

theorem outcome_refine (ix : Index) (f : Frame) (members : List (String × Json)) :
    Noted.outcome (Frame.refine ix f members) = (ownType? ix f members).map f.retyped := by
  unfold Frame.refine ownType?
  show Noted.outcome (match
      ((members.lookup typeMember).bind Annotated.overrideOf).filter (· ≠ "") with
    | none => pure f
    | some name => _) = _
  split
  · rfl
  · next name _ =>
    rw [Noted.outcome_bind, Noted.outcome_ofOutcome]
    cases objectType? ix name f.near with
    | error e => rfl
    | ok t => cases t <;> rfl

/-- The object that members make in a frame. -/
def object (ix : Index) (f : Frame) (members : List (String × Json)) : Noted BodyNode := do
  let g ← Frame.refine ix f members
  g.node <$> placeAll ix g members

/-! ## Where members belong -/

/-- The declared spelling of a member's name: itself when it is declared, else
the first declared name with the same letters. -/
def Frame.spelling? (f : Frame) (name : String) : Option String :=
  if name ∈ f.properties.map Prod.fst then some name
  else (f.properties.map Prod.fst).find? fun p => Text.sameLetters p name

/-- Whether a member stays with the object: the reference, what is declared,
and in a frame that does not know its members everything but bindings. -/
def Frame.stays (f : Frame) (name : String) : Bool :=
  match Annotated.roleOf name with
  | .id => true
  | .bind => false
  | .member => (f.spelling? name).isSome || !f.known

/-- The name of a member in the graph. -/
def Frame.entryName (f : Frame) (name : String) : String :=
  match Annotated.roleOf name with
  | .member => (f.spelling? name).getD name
  | _ => name

/-- The members that stay with the object, in their order. -/
def Frame.staying (f : Frame) (members : List (String × Json)) : List (String × Json) :=
  members.filter fun m => m.1 != typeMember && f.stays m.1

/-- The members that are additional data, in their order. -/
def Frame.leaving (f : Frame) (members : List (String × Json)) : List (String × Json) :=
  members.filter fun m => m.1 != typeMember && !f.stays m.1

/-- The value that a member is read as: a reference is read as a text. -/
def readAs (m : String × Json) : Json :=
  if m.1 = idMember then .str m.2.asText else m.2

/-- **What an object makes of its members**: those that stay with it in their
order, then one map of all others, in theirs, when there are any. `R` relates
values and nodes. -/
inductive ObjectOf (R : Json → BodyNode → Prop) (ix : Index) :
    BodyNode → Frame → List (String × Json) → Prop
  | mk {f : Frame} {members : List (String × Json)} {t : Option TypeDescriptor}
      {inner outer : List (String × BodyNode)} :
      ownType? ix f members = .ok t →
      inner.map Prod.fst = ((f.retyped t).staying members).map
        (fun m => (f.retyped t).entryName m.1) →
      List.Forall₂ R (((f.retyped t).staying members).map readAs) (inner.map Prod.snd) →
      outer.map Prod.fst = ((f.retyped t).leaving members).map Prod.fst →
      List.Forall₂ R (((f.retyped t).leaving members).map Prod.snd) (outer.map Prod.snd) →
      ObjectOf R ix (.object (f.retyped t).type
        (inner ++ if outer.isEmpty then [] else [(additionalData, .map outer)])
        (f.retyped t).derived) f members

/-! ## Placed members -/

variable {R : Json → BodyNode → Prop} {ix : Index} {f g : Frame}
  {members : List (String × Json)} {placed : List Placed}

theorem spelling?_eq (f : Frame) (name : String) :
    f.spelling? name = (f.property? name).map Prod.fst := by
  unfold Frame.spelling? Frame.property?
  cases hexact : f.properties.find? fun p => p.1 == name with
  | some p =>
    obtain rfl : p.1 = name := by simpa using List.find?_some hexact
    rw [if_pos (List.mem_map_of_mem (List.mem_of_find?_eq_some hexact))]
    rfl
  | none =>
    have hnot : name ∉ f.properties.map Prod.fst := by
      intro hmem
      obtain ⟨p, hp, rfl⟩ := List.mem_map.1 hmem
      simpa using List.find?_eq_none.1 hexact p hp
    rw [if_neg hnot, Option.none_or, List.find?_map]
    rfl

/-- A member and what has been placed for it. -/
structure IsPlaced (R : Json → BodyNode → Prop) (f : Frame) (m : String × Json) (p : Placed) :
    Prop where
  name : p.name = f.entryName m.1
  additional : p.additional = !f.stays m.1
  node : R (readAs m) p.node

/-- An entry is what has been placed for a member. -/
def IsEntryOf (Q : String × Json → Placed → Prop) (m : String × Json) (e : String × BodyNode) :
    Prop :=
  ∃ p, Q m p ∧ e = (p.name, p.node)

/-- Placed members stand in one of the two places, in their order. -/
theorem forall₂_pick {Q : String × Json → Placed → Prop}
    (hplace : ∀ m p, Q m p → p.additional = !f.stays m.1) (b : Bool)
    (h : List.Forall₂ Q members placed) :
    List.Forall₂ (fun m e => f.stays m.1 = b ∧ IsEntryOf Q m e)
      (members.filter fun m => f.stays m.1 == b) (Placed.pick (!b) placed) := by
  unfold Placed.pick
  induction h with
  | nil => exact .nil
  | @cons m p members placed hp _ ih =>
    have hsame : (p.additional == !b) = (f.stays m.1 == b) := by
      rw [hplace m p hp]
      cases f.stays m.1 <;> cases b <;> rfl
    rw [List.filter_cons, List.filter_cons, hsame]
    split
    · next hstays => exact .cons ⟨eq_of_beq hstays, p, hp, rfl⟩ ih
    · exact ih

/-- The entries of the members that stay. The type member is left out before
members are placed, not after. -/
theorem forall₂_staying {Q : String × Json → Placed → Prop}
    (hplace : ∀ m p, Q m p → p.additional = !f.stays m.1)
    (h : List.Forall₂ Q (members.filter fun m => m.1 != typeMember) placed) :
    List.Forall₂ (IsEntryOf Q) (f.staying members) (Placed.pick false placed) := by
  have hpicked := forall₂_pick hplace true h
  rw [List.filter_filter] at hpicked
  have hsame : f.staying members =
      members.filter fun m => f.stays m.1 == true && m.1 != typeMember := by
    simp [Frame.staying, Bool.and_comm]
  rw [hsame]
  exact hpicked.imp fun m e he => he.2

/-- The entries of the members that leave. -/
theorem forall₂_leaving {Q : String × Json → Placed → Prop}
    (hplace : ∀ m p, Q m p → p.additional = !f.stays m.1)
    (h : List.Forall₂ Q (members.filter fun m => m.1 != typeMember) placed) :
    List.Forall₂ (fun m e => f.stays m.1 = false ∧ IsEntryOf Q m e) (f.leaving members)
      (Placed.pick true placed) := by
  have hpicked := forall₂_pick hplace false h
  rw [List.filter_filter] at hpicked
  have hsame : f.leaving members =
      members.filter fun m => f.stays m.1 == false && m.1 != typeMember := by
    simp [Frame.leaving, Bool.and_comm]
  rw [hsame]
  exact hpicked

/-- Names and nodes of related entries. -/
theorem names_and_nodes {name : String × Json → String} {value : String × Json → Json}
    {entries : List (String × BodyNode)}
    (h : List.Forall₂ (fun m e => e.1 = name m ∧ R (value m) e.2) members entries) :
    entries.map Prod.fst = members.map name ∧
      List.Forall₂ R (members.map value) (entries.map Prod.snd) := by
  induction h with
  | nil => exact ⟨rfl, .nil⟩
  | cons he _ ih => exact ⟨by rw [List.map_cons, List.map_cons, he.1, ih.1], .cons he.2 ih.2⟩

theorem roleOf_eq_id {name : String} : Annotated.roleOf name = .id ↔ name = idMember := by
  unfold Annotated.roleOf
  split
  · next h => simp [h]
  · next h =>
    split <;> simp [h]

/-- A member that leaves keeps its name and its value. -/
theorem entry_of_not_stays {m : String × Json} (h : f.stays m.1 = false) :
    f.entryName m.1 = m.1 ∧ readAs m = m.2 := by
  unfold Frame.stays at h
  unfold Frame.entryName readAs
  have hid : Annotated.roleOf m.1 ≠ .id := by
    intro hrole
    simp [hrole] at h
  rw [if_neg (mt roleOf_eq_id.2 hid)]
  refine ⟨?_, rfl⟩
  cases hrole : Annotated.roleOf m.1 with
  | id => rfl
  | bind => rfl
  | member =>
    rw [hrole, Bool.or_eq_false_iff, Option.isSome_eq_false_iff, Option.isNone_iff_eq_none] at h
    rw [h.1]
    rfl

/-- **The two places together** are what an object makes of its members. -/
theorem objectOf_of_placed {t : Option TypeDescriptor} (hown : ownType? ix f members = .ok t)
    (h : List.Forall₂ (IsPlaced R (f.retyped t)) (members.filter fun m => m.1 != typeMember)
      placed) :
    ObjectOf R ix ((f.retyped t).node placed) f members := by
  have hplace : ∀ m p, IsPlaced R (f.retyped t) m p → p.additional = !(f.retyped t).stays m.1 :=
    fun _ _ hp => hp.additional
  have hinner : List.Forall₂ (fun m e => e.1 = (f.retyped t).entryName m.1 ∧ R (readAs m) e.2)
      ((f.retyped t).staying members) (Placed.pick false placed) := by
    refine (forall₂_staying hplace h).imp ?_
    rintro m e ⟨p, hp, rfl⟩
    exact ⟨hp.name, hp.node⟩
  have houter : List.Forall₂ (fun m e => e.1 = m.1 ∧ R m.2 e.2)
      ((f.retyped t).leaving members) (Placed.pick true placed) := by
    refine (forall₂_leaving hplace h).imp ?_
    rintro m e ⟨hstays, p, hp, rfl⟩
    obtain ⟨hentry, hread⟩ := entry_of_not_stays hstays
    have hname := hp.name
    have hnode := hp.node
    rw [hentry] at hname
    rw [hread] at hnode
    exact ⟨hname, hnode⟩
  obtain ⟨hstay, hstayNodes⟩ := names_and_nodes hinner
  obtain ⟨hleave, hleaveNodes⟩ := names_and_nodes houter
  exact .mk hown hstay hstayNodes hleave hleaveNodes

/-! ## Frames -/

theorem exists_ownType_of_refine (h : Noted.outcome (Frame.refine ix f members) = .ok g) :
    ∃ t, ownType? ix f members = .ok t ∧ f.retyped t = g := by
  rw [outcome_refine] at h
  exact Outcome.map_eq_ok.1 h

theorem exists_refine_of_namedFrame {type : TypeRef}
    (h : Noted.outcome (namedFrame ix type members) = .ok g) :
    ∃ f, Noted.outcome (Frame.refine ix f members) = .ok g := by
  obtain ⟨properties, -, h⟩ := Noted.outcome_bind_eq_ok.1 h
  exact ⟨_, h⟩

/-- Wherever a shape makes a frame for an object, the object's own type has
been taken into account. -/
theorem exists_refine_of_planObject {shape : Option Shape} {hint : String}
    (h : Noted.outcome (planObject ix shape hint members) = .ok (.frame g)) :
    ∃ f, Noted.outcome (Frame.refine ix f members) = .ok g := by
  unfold planObject at h
  split at h
  · simp at h
  split at h
  · simp at h
  split at h
  · obtain ⟨type, -, h⟩ := Noted.outcome_bind_eq_ok.1 h
    obtain ⟨g', hg, h⟩ := Noted.outcome_map_eq_ok.1 h
    obtain rfl := ObjectPlan.frame.inj h
    exact exists_refine_of_namedFrame hg
  split at h
  · simp at h
  · obtain ⟨g', hg, h⟩ := Noted.outcome_map_eq_ok.1 h
    obtain rfl := ObjectPlan.frame.inj h
    exact ⟨_, hg⟩

theorem exists_refine_of_planUntyped {near : Option String}
    (h : Noted.outcome (planUntyped ix near members) = .ok (.frame g)) :
    ∃ f, Noted.outcome (Frame.refine ix f members) = .ok g := by
  unfold planUntyped at h
  split at h
  · obtain ⟨t, -, h⟩ := Noted.outcome_bind_eq_ok.1 h
    split at h
    · obtain ⟨g', hg, h⟩ := Noted.outcome_map_eq_ok.1 h
      obtain rfl := ObjectPlan.frame.inj h
      exact exists_refine_of_namedFrame hg
    · simp at h
  · simp at h

/-- The frame of a body object is made like any other. -/
theorem exists_refine_of_rootFrame {r : ResolvedRequest}
    (h : Noted.outcome (rootFrame ix r members) = .ok g) :
    ∃ f, Noted.outcome (Frame.refine ix f members) = .ok g := by
  unfold rootFrame at h
  simp only at h
  split at h
  · obtain ⟨type, -, h⟩ := Noted.outcome_bind_eq_ok.1 h
    exact exists_refine_of_namedFrame h
  · split at h
    · exact ⟨_, h⟩
    · simp at h
  · exact ⟨_, h⟩

end Body

end ApiSnippets
