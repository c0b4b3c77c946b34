import ApiSnippets.Fault
/-!
# Notices

Remarks on an input that is answered all the same, in the order in which they
come up. `Noted` is an outcome with the notices given on the way to it.
-/

namespace ApiSnippets

/-- A remark on an input. -/
inductive Notice where
  | undeclaredArgument (argument template : String)
  | unknownDerivedType (derived declared : String)
  | unknownMember (value type member : String)
  deriving DecidableEq, Repr

/-- The text of a notice. -/
def Notice.message : Notice → String
  | undeclaredArgument argument template =>
    "Dropping argument '" ++ argument ++ "' not declared by " ++ template
  | unknownDerivedType derived declared =>
    "Unknown derived type '" ++ derived ++ "'; keeping " ++ declared
  | unknownMember value type member =>
    "'" ++ value ++ "' is not a member of " ++ type ++ "; using " ++ member

/-- An outcome with the notices given on the way. -/
structure Noted (α : Type) where
  run : Outcome (α × List Notice)

namespace Noted

variable {α β : Type}

/-- An outcome without notices. -/
def ofOutcome (r : Outcome α) : Noted α :=
  ⟨r.map fun a => (a, [])⟩

/-- A notice. -/
def note (n : Notice) : Noted Unit :=
  ⟨.ok ((), [n])⟩

/-- A step and the next one, with the notices of both. -/
def andThen (m : Noted α) (f : α → Noted β) : Noted β :=
  ⟨match m.run with
    | .ok (a, before) =>
      match (f a).run with
      | .ok (b, after) => .ok (b, before ++ after)
      | .error e => .error e
    | .error e => .error e⟩

instance : Monad Noted where
  pure a := ⟨.ok (a, [])⟩
  bind := andThen

instance : MonadLift (Except Fault) Noted where
  monadLift := ofOutcome

/-- The value without the notices. -/
def outcome (m : Noted α) : Outcome α :=
  m.run.map Prod.fst

@[simp] theorem outcome_pure (a : α) : outcome (pure a) = .ok a := rfl

@[simp] theorem outcome_ofOutcome (r : Outcome α) : outcome (ofOutcome r) = r := by
  cases r <;> rfl

/-- **Notices have no influence**: what is answered does not depend on them. -/
@[simp] theorem outcome_bind (m : Noted α) (f : α → Noted β) :
    outcome (m >>= f) = outcome m >>= fun a => outcome (f a) := by
  obtain ⟨r⟩ := m
  cases r with
  | error e => rfl
  | ok p =>
    obtain ⟨a, before⟩ := p
    show outcome (andThen ⟨.ok (a, before)⟩ f) = outcome (f a)
    simp only [outcome, andThen]
    cases (f a).run <;> rfl

end Noted

end ApiSnippets
