import ApiSnippets.Proofs.Body.Conformance
/-!
# Bodies that differ in texts

Two values are read alike when each can stand in the place of the other: they
have the same parts, except for texts that are read as strings. What the texts of
one have to do with those of the other is left open. The graphs of such bodies
are the same but for the texts of string nodes (`alike_build`).
-/

namespace ApiSnippets

/-! ## Outcomes of two runs -/

/-- That two outcomes are related results or the same fault. -/
inductive Outcome.Related {α β : Type} (R : α → β → Prop) : Outcome α → Outcome β → Prop
  | ok {a : α} {b : β} : R a b → Related R (.ok a) (.ok b)
  | error (e : Fault) : Related R (.error e) (.error e)

namespace Outcome.Related

variable {α β γ δ : Type} {R : α → β → Prop} {S : γ → δ → Prop} {x : Outcome α} {y : Outcome β}

theorem refl {R : α → α → Prop} (hR : ∀ a, R a a) (x : Outcome α) : Outcome.Related R x x := by
  cases x with
  | ok a => exact .ok (hR a)
  | error e => exact .error e

theorem bind {f : α → Outcome γ} {g : β → Outcome δ} (h : Outcome.Related R x y)
    (hfg : ∀ a b, R a b → Outcome.Related S (f a) (g b)) :
    Outcome.Related S (x >>= f) (y >>= g) := by
  cases h with
  | ok hab => exact hfg _ _ hab
  | error e => exact .error e

theorem map {f : α → γ} {g : β → δ} (h : Outcome.Related R x y)
    (hfg : ∀ a b, R a b → S (f a) (g b)) : Outcome.Related S (x.map f) (y.map g) := by
  cases h with
  | ok hab => exact .ok (hfg _ _ hab)
  | error e => exact .error e

theorem imp {S : α → β → Prop} (h : Outcome.Related R x y)
    (hS : ∀ a b, R a b → x = .ok a → y = .ok b → S a b) : Outcome.Related S x y := by
  cases h with
  | ok hab => exact .ok (hS _ _ hab rfl rfl)
  | error e => exact .error e

theorem eq {x y : Outcome α} (h : Outcome.Related Eq x y) : x = y := by
  cases h with
  | ok hab => rw [hab]
  | error e => rfl

end Outcome.Related

/-! ## Alike nodes -/

namespace BodyNode

mutual

/-- **That two nodes are the same but for the texts of their string nodes**,
which are related. -/
inductive Alike (R : String → String → Prop) : BodyNode → BodyNode → Prop
  | same (n : BodyNode) : Alike R n n
  | string {v v' : String} : R v v' → Alike R (string v) (string v')
  | object (t : TypeRef) {ms ms' : List (String × BodyNode)} (derived : Bool) :
      AlikeMembers R ms ms' → Alike R (object t ms derived) (object t ms' derived)
  | array (item : Option ItemType) {es es' : List BodyNode} :
      AlikeAll R es es' → Alike R (array item es) (array item es')
  | map {ms ms' : List (String × BodyNode)} :
      AlikeMembers R ms ms' → Alike R (map ms) (map ms')

/-- Nodes that are alike one by one. -/
inductive AlikeAll (R : String → String → Prop) : List BodyNode → List BodyNode → Prop
  | nil : AlikeAll R [] []
  | cons {n n' : BodyNode} {ns ns' : List BodyNode} :
      Alike R n n' → AlikeAll R ns ns' → AlikeAll R (n :: ns) (n' :: ns')

/-- Members of the same names whose nodes are alike. -/
inductive AlikeMembers (R : String → String → Prop) :
    List (String × BodyNode) → List (String × BodyNode) → Prop
  | nil : AlikeMembers R [] []
  | cons (name : String) {n n' : BodyNode} {ms ms' : List (String × BodyNode)} :
      Alike R n n' → AlikeMembers R ms ms' → AlikeMembers R ((name, n) :: ms) ((name, n') :: ms')

end

variable {R : String → String → Prop} {n n' : BodyNode}

theorem AlikeMembers.isEmpty {ms ms' : List (String × BodyNode)} (h : AlikeMembers R ms ms') :
    ms.isEmpty = ms'.isEmpty := by
  cases h <;> rfl

theorem AlikeMembers.append {ms ms' more more' : List (String × BodyNode)}
    (h : AlikeMembers R ms ms') (hmore : AlikeMembers R more more') :
    AlikeMembers R (ms ++ more) (ms' ++ more') :=
  match h with
  | .nil => hmore
  | .cons name hn hms => .cons name hn (hms.append hmore)

end BodyNode

/-- Graphs with alike roots. -/
def BodyGraph.Alike (R : String → String → Prop) (g g' : BodyGraph) : Prop :=
  g.root.Alike R g'.root

namespace Body

open Annotated (typeMember)
open BodyNode (Alike AlikeAll AlikeMembers)

/-! ## Values that are read alike -/

/-- How an object below the root is read: by its shape, or else by the type that
it names for itself. -/
def planValue (ix : Index) (shape : Option Shape) (near : Option String) (hint : String)
    (members : List (String × Json)) : Noted ObjectPlan := do
  match ← planObject ix shape hint members with
  | .untyped => planUntyped ix near members
  | plan => pure plan

mutual

/-- **That a value is read like another one** in a place with a shape: it is the
same, a related text where texts become strings, an array, or an object that is
read in the same frame. -/
inductive ReadsAlike (R : String → String → Prop) (ix : Index) :
    Option Shape → Option String → String → Json → Json → Prop
  | same (shape : Option Shape) (near : Option String) (hint : String) (v : Json) :
      ReadsAlike R ix shape near hint v v
  | text {shape : Option Shape} {near : Option String} {hint v v' : String} :
      (value ix shape near hint (.str v)).outcome = .ok (.string v) →
      (value ix shape near hint (.str v')).outcome = .ok (.string v') → R v v' →
      ReadsAlike R ix shape near hint (.str v) (.str v')
  | array {shape : Option Shape} {near : Option String} {hint : String} {vs vs' : List Json} :
      ElementsAlike R ix (itemShape shape) near (Naming.singularize hint) vs vs' →
      ReadsAlike R ix shape near hint (.arr vs) (.arr vs')
  | object {shape : Option Shape} {near : Option String} {hint : String}
      {ms ms' : List (String × Json)} {f : Frame} :
      (planValue ix shape near hint ms).outcome = .ok (.frame f) →
      (planValue ix shape near hint ms').outcome = .ok (.frame f) → MembersAlike R ix f ms ms' →
      ReadsAlike R ix shape near hint (.obj ms) (.obj ms')
  | map {shape : Option Shape} {near : Option String} {hint : String}
      {ms ms' : List (String × Json)} :
      (planValue ix shape near hint ms).outcome = .ok .untyped →
      (planValue ix shape near hint ms').outcome = .ok .untyped → EntriesAlike R ix near ms ms' →
      ReadsAlike R ix shape near hint (.obj ms) (.obj ms')

/-- Elements that are read alike one by one. -/
inductive ElementsAlike (R : String → String → Prop) (ix : Index) :
    Option Shape → Option String → String → List Json → List Json → Prop
  | nil (shape : Option Shape) (near : Option String) (hint : String) :
      ElementsAlike R ix shape near hint [] []
  | cons {shape : Option Shape} {near : Option String} {hint : String} {v v' : Json}
      {vs vs' : List Json} : ReadsAlike R ix shape near hint v v' →
      ElementsAlike R ix shape near hint vs vs' →
      ElementsAlike R ix shape near hint (v :: vs) (v' :: vs')

/-- Members of the same names that a frame reads alike. What names the type of an
object is no part of it, and a reference becomes a string. -/
inductive MembersAlike (R : String → String → Prop) (ix : Index) :
    Frame → List (String × Json) → List (String × Json) → Prop
  | nil (f : Frame) : MembersAlike R ix f [] []
  | type {f : Frame} (v v' : Json) {ms ms' : List (String × Json)} : MembersAlike R ix f ms ms' →
      MembersAlike R ix f ((typeMember, v) :: ms) ((typeMember, v') :: ms')
  | id {f : Frame} {name : String} {v v' : Json} {ms ms' : List (String × Json)} :
      Annotated.roleOf name = .id → Alike R (.string v.asText) (.string v'.asText) →
      MembersAlike R ix f ms ms' →
      MembersAlike R ix f ((name, v) :: ms) ((name, v') :: ms')
  | member {f : Frame} {name : String} {v v' : Json} {ms ms' : List (String × Json)} :
      Annotated.roleOf name ≠ .id →
      ReadsAlike R ix (f.shape? name) f.near (f.entryName name) v v' →
      MembersAlike R ix f ms ms' → MembersAlike R ix f ((name, v) :: ms) ((name, v') :: ms')

/-- Entries of the same names that are read alike, with no shape for them. -/
inductive EntriesAlike (R : String → String → Prop) (ix : Index) :
    Option String → List (String × Json) → List (String × Json) → Prop
  | nil (near : Option String) : EntriesAlike R ix near [] []
  | cons {near : Option String} (name : String) {v v' : Json} {ms ms' : List (String × Json)} :
      ReadsAlike R ix none near name v v' → EntriesAlike R ix near ms ms' →
      EntriesAlike R ix near ((name, v) :: ms) ((name, v') :: ms')

end

variable {R : String → String → Prop} {r : ResolvedRequest} {ix : Index} {f : Frame}

/-! ## Graphs of alike bodies -/

/-- What is placed alike. -/
structure PlacedAlike (R : String → String → Prop) (p p' : Placed) : Prop where
  name : p.name = p'.name
  node : Alike R p.node p'.node
  additional : p.additional = p'.additional

theorem alikeMembers_pick (additional : Bool) {ps ps' : List Placed}
    (h : List.Forall₂ (PlacedAlike R) ps ps') :
    AlikeMembers R (Placed.pick additional ps) (Placed.pick additional ps') := by
  induction h with
  | nil => exact .nil
  | @cons p p' ps ps' hp _ ih =>
    unfold Placed.pick at ih ⊢
    rw [List.filter_cons, List.filter_cons, hp.additional]
    split
    · rw [List.map_cons, List.map_cons, hp.name]
      exact .cons _ hp.node ih
    · exact ih

theorem alike_node {ps ps' : List Placed} (h : List.Forall₂ (PlacedAlike R) ps ps') :
    Alike R (f.node ps) (f.node ps') := by
  have hextra := alikeMembers_pick true h
  refine .object _ _ ((alikeMembers_pick false h).append ?_)
  rw [hextra.isEmpty]
  split
  · exact .nil
  · exact .cons _ (.map hextra) .nil

theorem find?_of_alike : ∀ {es es' : List BodyNode}, AlikeAll R es es' →
    (es.find? fun e => !isNull e).bind itemTypeOf? =
      (es'.find? fun e => !isNull e).bind itemTypeOf?
  | _, _, .nil => rfl
  | n :: _, n' :: _, .cons h hs => by
    have hnull : isNull n = isNull n' := by cases h <;> rfl
    have htype : itemTypeOf? n = itemTypeOf? n' := by cases h <;> rfl
    rw [List.find?_cons, List.find?_cons, hnull]
    cases isNull n' with
    | true => exact find?_of_alike hs
    | false => exact htype

theorem itemType_of_alike (shape : Option Shape) {es es' : List BodyNode} (h : AlikeAll R es es') :
    itemType shape es = itemType shape es' := by
  rw [itemType, itemType, find?_of_alike h]

/-- What becomes of an object below the root, once it is known how it is read. -/
theorem outcome_value_obj {shape : Option Shape} {near : Option String} {hint : String}
    {members : List (String × Json)} : (value r.index shape near hint (.obj members)).outcome =
      (planValue r.index shape near hint members).outcome >>= fun plan =>
        (plan.node r.index near members).outcome := by
  have hnode := Site.outcome_node (r := r) (s := ⟨[0], shape, near, hint, .obj members⟩) (by simp)
  rw [← hnode, ← Noted.outcome_bind]
  rfl

/-- Alike members make alike objects. -/
theorem alike_frame {near : Option String} {ms ms' : List (String × Json)}
    (h : Outcome.Related (List.Forall₂ (PlacedAlike R)) (placeAll ix f ms).outcome
      (placeAll ix f ms').outcome) :
    Outcome.Related (Alike R) ((ObjectPlan.frame f).node ix near ms).outcome
      ((ObjectPlan.frame f).node ix near ms').outcome := by
  show Outcome.Related _ (Noted.outcome (f.node <$> _)) (Noted.outcome (f.node <$> _))
  rw [Noted.outcome_map, Noted.outcome_map]
  exact h.map fun _ _ hps => alike_node hps

mutual

/-- **What is read alike becomes alike nodes**, or fails alike. -/
theorem alike_value : ∀ {shape : Option Shape} {near : Option String} {hint : String}
    {v v' : Json}, ReadsAlike R r.index shape near hint v v' →
      Outcome.Related (Alike R) (value r.index shape near hint v).outcome
        (value r.index shape near hint v').outcome
  | _, _, _, _, _, .same _ _ _ _ => .refl Alike.same _
  | _, _, _, _, _, .text hv hv' hR => by
    rw [hv, hv']
    exact .ok (.string hR)
  | shape, _, _, _, _, .array hvs => by
    rw [value, value]
    cases shape.bind Shape.objectName? with
    | some name => exact .error _
    | none =>
      simp only [Noted.outcome_bind]
      refine (alike_valueAll hvs).bind fun es es' hes => ?_
      rw [itemType_of_alike _ hes]
      exact .ok (.array _ hes)
  | _, _, _, _, _, .object hplan hplan' hms => by
    rw [outcome_value_obj, outcome_value_obj, hplan, hplan']
    exact alike_frame (alike_placeAll hms)
  | _, _, _, _, _, .map hplan hplan' hms => by
    rw [outcome_value_obj, outcome_value_obj, hplan, hplan']
    show Outcome.Related _ (Noted.outcome (BodyNode.map <$> _)) (Noted.outcome (BodyNode.map <$> _))
    rw [Noted.outcome_map, Noted.outcome_map]
    exact (alike_untypedMembers hms).map fun _ _ hes => .map hes

theorem alike_valueAll : ∀ {shape : Option Shape} {near : Option String} {hint : String}
    {vs vs' : List Json}, ElementsAlike R r.index shape near hint vs vs' →
      Outcome.Related (AlikeAll R) (valueAll r.index shape near hint vs).outcome
        (valueAll r.index shape near hint vs').outcome
  | _, _, _, _, _, .nil _ _ _ => .ok .nil
  | _, _, _, _, _, .cons h hs => by
    rw [valueAll, valueAll]
    simp only [Noted.outcome_bind]
    exact (alike_value h).bind fun _ _ hn => (alike_valueAll hs).bind fun _ _ hns =>
      .ok (.cons hn hns)

theorem alike_placeAll : ∀ {f : Frame} {ms ms' : List (String × Json)},
    MembersAlike R r.index f ms ms' →
      Outcome.Related (List.Forall₂ (PlacedAlike R)) (placeAll r.index f ms).outcome
        (placeAll r.index f ms').outcome
  | _, _, _, .nil _ => .ok .nil
  | _, _, _, .type v v' hms => by
    rw [outcome_placeAll_type, outcome_placeAll_type]
    exact alike_placeAll hms
  | _, _, _, .id hrole hn hms => by
    rw [outcome_placeAll_id hrole, outcome_placeAll_id hrole]
    exact (alike_placeAll hms).bind fun _ _ hps => .ok (.cons ⟨rfl, hn, rfl⟩ hps)
  | _, (name, _) :: _, _, .member hid h hms => by
    by_cases hname : name = typeMember
    · subst hname
      rw [outcome_placeAll_type, outcome_placeAll_type]
      exact alike_placeAll hms
    · rw [outcome_placeAll_member hname hid, outcome_placeAll_member hname hid]
      exact (alike_value h).bind fun _ _ hn => (alike_placeAll hms).bind fun _ _ hps =>
        .ok (.cons ⟨rfl, hn, rfl⟩ hps)

theorem alike_untypedMembers : ∀ {near : Option String} {ms ms' : List (String × Json)},
    EntriesAlike R r.index near ms ms' →
      Outcome.Related (AlikeMembers R) (untypedMembers r.index near ms).outcome
        (untypedMembers r.index near ms').outcome
  | _, _, _, .nil _ => .ok .nil
  | near, _, _, .cons name h hms => by
    rw [untypedMembers, untypedMembers]
    simp only [Noted.outcome_bind, ← outcome_value_none _ near name]
    exact (alike_value h).bind fun _ _ hn => (alike_untypedMembers hms).bind fun _ _ hes =>
      .ok (.cons name hn hes)

end

/-! ## Bodies of requests -/

/-- **That two requests send JSON that is read alike.** -/
inductive SentAlike (R : String → String → Prop) (r r' : ResolvedRequest) : Prop
  | object {ms ms' : List (String × Json)} {f : Frame} :
      sentJson? r = some (.obj ms) → sentJson? r' = some (.obj ms') →
      (rootFrame r.index r ms).outcome = .ok f → (rootFrame r'.index r' ms').outcome = .ok f →
      MembersAlike R r.index f ms ms' → SentAlike R r r'
  | value {v v' : Json} :
      sentJson? r = some v → sentJson? r' = some v' →
      (∀ ms, v ≠ .obj ms) → (∀ ms, v' ≠ .obj ms) →
      ReadsAlike R r.index r.operation.requestSchema none (addressedName r.segments) v v' →
      SentAlike R r r'

theorem outcome_ofJson_of_ne_obj {v : Json} (h : ∀ members, v ≠ .obj members) :
    (ofJson r.index r v).outcome =
      (value r.index r.operation.requestSchema none (addressedName r.segments) v).outcome.map
        fun n => ⟨n, elementClass? n⟩ := by
  unfold ofJson
  split
  · next members => exact absurd rfl (h members)
  · rw [Noted.outcome_bind]
    cases (value r.index r.operation.requestSchema none (addressedName r.segments) v).outcome <;>
      rfl

/-- **The graphs of what is read alike** are the same but for the texts of string
nodes. -/
theorem alike_build {r' : ResolvedRequest} (hindex : r.index = r'.index)
    (hsegments : r.segments = r'.segments) (hoperation : r.operation = r'.operation)
    (h : SentAlike R r r') :
    Outcome.Related (Option.Rel (BodyGraph.Alike R)) (build r).outcome (build r').outcome := by
  cases h with
  | object hsent hsent' hf hf' hms =>
    rw [outcome_build hsent, outcome_build hsent', ofJson, ofJson]
    simp only [Noted.outcome_bind, hf, hf']
    rw [← hindex]
    refine ((alike_placeAll hms).bind fun _ _ hps => ?_).map fun _ _ hg => .some hg
    exact .ok (alike_node hps)
  | value hsent hsent' hv hv' h =>
    rw [outcome_build hsent, outcome_build hsent', outcome_ofJson_of_ne_obj hv,
      outcome_ofJson_of_ne_obj hv', ← hindex, ← hsegments, ← hoperation]
    have hgraph : Outcome.Related (BodyGraph.Alike R)
        ((value r.index r.operation.requestSchema none (addressedName r.segments) _).outcome.map
          fun n => ⟨n, elementClass? n⟩)
        ((value r.index r.operation.requestSchema none (addressedName r.segments) _).outcome.map
          fun n => ⟨n, elementClass? n⟩) := (alike_value h).map fun _ _ hn => hn
    exact hgraph.map fun _ _ hg => .some hg

end Body

end ApiSnippets
