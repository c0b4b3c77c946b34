import ApiSnippets.Proofs.Body.Nodes
/-!
# The numbers of a body

Every number of every graph that is built is typed for itself, by some shape or
by none (`areTyped_build`). A number with a fraction is never typed as one
without: whatever a shape declares, the type of a double has a fraction
(`fractional_numberType`). Hence so it is for every number of a graph, at any
depth (`keepsFractions_build`).
-/

namespace ApiSnippets

namespace BodyNode

variable {m : BodyNode}

/-- That a double, if the node is one, is typed with a fraction. -/
def KeepsFraction : BodyNode → Prop
  | number (.num _) t => t.fractional = true
  | _ => True

/-- That all doubles from a node on are typed with a fraction. -/
def KeepsFractions (n : BodyNode) : Prop :=
  ∀ m ∈ n.walk, m.KeepsFraction

/-- That the number, if the node is one, has the type of its value for some
shape or for none. -/
def IsTyped : BodyNode → Prop
  | number q t => ∃ shape, t = Body.numberType shape q
  | _ => True

/-- That all numbers from a node on have the types of their values. -/
def AreTyped (n : BodyNode) : Prop :=
  ∀ m ∈ n.walk, m.IsTyped

end BodyNode

namespace Body

variable {n : BodyNode} {r : ResolvedRequest}

/-! ## Values without parts -/

/-- **The type of a double has a fraction**, whatever is declared. -/
theorem fractional_numberType (shape : Option Shape) (x : Float) :
    (numberType shape (.num x)).fractional = true := by
  unfold numberType
  cases hdeclared : shape.bind (declaredNumberType? · (.num x)) with
  | none => rfl
  | some t =>
    obtain ⟨s, -, hs⟩ := Option.bind_eq_some_iff.1 hdeclared
    unfold declaredNumberType? at hs
    split at hs
    · exact Option.some.inj hs ▸ rfl
    split at hs
    · exact Option.some.inj hs ▸ rfl
    split at hs
    · exact Option.some.inj hs ▸ rfl
    split at hs
    · exact Option.some.inj hs ▸ rfl
    · cases hs

theorem keepsFraction_of_isTyped (h : n.IsTyped) : n.KeepsFraction := by
  cases n with
  | number q t =>
    cases q with
    | int i => trivial
    | num x =>
      obtain ⟨shape, rfl⟩ := h
      exact fractional_numberType shape x
  | _ => trivial

/-! ## The numbers of a graph -/

/-- A value without parts is typed by the shape it is read under. -/
theorem isTyped_of_isLeaf {ix : Index} {shape : Option Shape} {near : Option String}
    {hint : String} {v : Json} (h : (value ix shape near hint v).outcome = .ok n)
    (hleaf : IsLeaf v n) : n.IsTyped := by
  cases hleaf with
  | int | num =>
    rw [value] at h
    obtain ⟨-, rfl⟩ := BodyNode.number.inj (Noted.outcome_pure_eq_ok.1 (outcome_of_leafFault h))
    exact ⟨shape, rfl⟩
  | _ => trivial

theorem nodeCases_isTyped (r : ResolvedRequest) : NodeCases r BodyNode.IsTyped where
  leaf := isTyped_of_isLeaf
  stream _ := trivial
  array _ := trivial
  map _ := trivial
  object _ _ := trivial

/-- **Every graph that is built** types all its numbers. -/
theorem areTyped_build {g : BodyGraph} (h : (build r).outcome = .ok (some g)) :
    g.root.AreTyped :=
  (nodeCases_isTyped r).build h

/-- **Every graph that is built** keeps the fractions of its numbers. -/
theorem keepsFractions_build {g : BodyGraph} (h : (build r).outcome = .ok (some g)) :
    g.root.KeepsFractions :=
  fun m hm => keepsFraction_of_isTyped (areTyped_build h m hm)

end Body

end ApiSnippets
