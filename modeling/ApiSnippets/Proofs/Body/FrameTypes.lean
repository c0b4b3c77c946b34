import ApiSnippets.Proofs.Body.Nodes
import ApiSnippets.Proofs.Body.OwnTypes
import ApiSnippets.Proofs.Recasing
/-!
# Types of frames

The type of a frame is one of the schema, or else the object is declared in
place and its type is made up for it: a bare name, in Pascal case
(`TypeRef.IsSettled`). So it is for every frame in which an object of a body is
read (`IsFrame.isSettled`), whether or not the object names another type for
itself.
-/

namespace ApiSnippets

/-- That a type is of the schema, or it has a name in Pascal case and no
namespace. -/
def TypeRef.IsSettled (t : TypeRef) : Prop :=
  t.synthesized = true → t.namespaceName = "" ∧ Naming.pascal t.name = t.name

namespace Body

variable {ix : Index} {r : ResolvedRequest} {f g : Frame} {s : Site} {type : TypeRef}
  {members : List (String × Json)} {near : Option String} {shape : Option Shape} {hint : String}

theorem isSettled_ofName (name : String) : (TypeRef.ofName name).IsSettled := by
  intro h
  cases h

theorem isSettled_pascal (name : String) (action : Option String) :
    TypeRef.IsSettled { name := Naming.pascal name, synthesized := true, action := action } :=
  fun _ => ⟨rfl, Naming.pascal_pascal name⟩

/-- The class name of the body of an operation is in Pascal case. -/
theorem pascal_className (base : String) (m : Method) :
    Naming.pascal (className base m) = className base m := by
  have hending : Naming.pascal classEnding = classEnding := by decide +kernel
  exact Naming.pascal_append
    (Naming.pascal_append (Naming.pascal_pascal base) (Naming.pascal_pascal m.name)) hending

/-! ## Frames before the object's own type -/

theorem isSettled_of_frameOf (htype : type.IsSettled) (h : frameOf ix type = .ok f) :
    f.type.IsSettled := by
  obtain ⟨properties, -, h⟩ := Outcome.bind_eq_ok.1 h
  obtain rfl := Outcome.pure_eq_ok.1 h
  exact htype

theorem isSettled_synthesizedFrame (shape : Option Shape) :
    (synthesizedFrame ix r shape members).type.IsSettled := by
  intro _
  unfold synthesizedFrame
  dsimp only
  split
  · exact ⟨rfl, Naming.pascal_pascal _⟩
  · exact ⟨rfl, pascal_className _ _⟩
  · split
    · exact ⟨rfl, pascal_className _ _⟩
    · split
      · exact ⟨rfl, Naming.pascal_pascal _⟩
      · exact ⟨rfl, pascal_className _ _⟩

theorem isSettled_of_declaredFrame? (h : declaredFrame? ix shape hint = .ok (some f)) :
    f.type.IsSettled := by
  unfold declaredFrame? at h
  split at h
  · cases h
  split at h
  · obtain ⟨type, htype, h⟩ := Outcome.bind_eq_ok.1 h
    obtain ⟨f', hf', hsome⟩ := Outcome.map_eq_ok.1 h
    obtain rfl := Option.some.inj hsome
    obtain ⟨found, -, htype⟩ := Outcome.bind_eq_ok.1 htype
    obtain rfl := Outcome.pure_eq_ok.1 htype
    exact isSettled_of_frameOf (isSettled_ofName _) hf'
  · split at h
    · cases h
    · obtain rfl := Option.some.inj (Except.ok.inj h)
      exact isSettled_pascal _ none

theorem isSettled_of_untypedFrame? (h : untypedFrame? ix near members = .ok (some f)) :
    f.type.IsSettled := by
  unfold untypedFrame? at h
  split at h
  · obtain ⟨t?, -, h⟩ := Outcome.bind_eq_ok.1 h
    cases t? with
    | none => cases h
    | some t =>
      obtain ⟨f', hf', hsome⟩ := Outcome.map_eq_ok.1 h
      obtain rfl := Option.some.inj hsome
      exact isSettled_of_frameOf (isSettled_ofName _) hf'
  · cases h

theorem isSettled_of_declared? (h : s.declared? r members = .ok (some f)) : f.type.IsSettled := by
  unfold Site.declared? at h
  split at h
  · obtain rfl := Option.some.inj (Except.ok.inj h)
    exact isSettled_synthesizedFrame _
  · exact isSettled_of_declaredFrame? h

/-! ## Frames of objects -/

/-- The type that an object names for itself is of the schema. -/
theorem isSettled_of_refined {f? : Option Frame} (hf : ∀ f, f? = some f → f.type.IsSettled)
    (h : refined ix members f? = .ok (.frame g)) : g.type.IsSettled := by
  cases f? with
  | none => cases h
  | some f =>
    obtain ⟨t, -, hframe⟩ := Outcome.map_eq_ok.1 h
    obtain rfl := ObjectPlan.frame.inj hframe
    cases t with
    | none => exact hf f rfl
    | some t => exact isSettled_ofName t.name

theorem isCollection_of_frame (h : (planObject ix shape hint members).outcome = .ok (.frame g)) :
    isCollection shape = false := by
  unfold planObject at h
  split at h
  · simp at h
  · next hcollection => simpa using hcollection

/-- **Every frame of a body** has a type of the schema or one that is made up
for good. -/
theorem IsFrame.isSettled (h : IsFrame r f) : f.type.IsSettled := by
  cases h with
  | planned h =>
    rw [outcome_planObject (isCollection_of_frame h)] at h
    obtain ⟨f?, hf, h⟩ := Outcome.bind_eq_ok.1 h
    exact isSettled_of_refined (fun f hsome => isSettled_of_declaredFrame? (hsome ▸ hf)) h
  | untyped h =>
    rw [outcome_planUntyped] at h
    obtain ⟨f?, hf, h⟩ := Outcome.bind_eq_ok.1 h
    exact isSettled_of_refined (fun f hsome => isSettled_of_untypedFrame? (hsome ▸ hf)) h
  | @root members h =>
    have hplan : (ObjectPlan.frame <$> rootFrame r.index r members).outcome = .ok (.frame f) := by
      rw [Noted.outcome_map, h]
      rfl
    obtain ⟨f', hf', hrefined⟩ := exists_frame_of_rootFrame (v := .null) hplan
    refine isSettled_of_refined (fun f hsome => ?_) hrefined
    exact isSettled_of_declared? (Option.some.inj hsome ▸ hf')

/-- An object at a site is read in a frame or in none. -/
theorem isFrame_of_plan (h : (s.plan r members).outcome = .ok (.frame g)) : IsFrame r g := by
  unfold Site.plan at h
  split at h
  · obtain ⟨f, hf, hframe⟩ := Noted.outcome_map_eq_ok.1 h
    obtain rfl := ObjectPlan.frame.inj hframe
    exact .root hf
  · obtain ⟨plan, hplan, h⟩ := Noted.outcome_bind_eq_ok.1 h
    split at h
    · exact .untyped h
    · obtain rfl := Noted.outcome_pure_eq_ok.1 h
      exact .planned hplan

end Body

end ApiSnippets
