import Mathlib.Data.List.Forall2
import ApiSnippets.Notice
/-!
# Opening outcomes

A sequence of steps has a value exactly when every step has one. These are the
lemmas by which the proofs take such a sequence apart, one step at a time,
with or without notices.
-/

namespace ApiSnippets

namespace Outcome

variable {α β : Type}

/-- **A sequence has a value when each of its steps has one.** -/
theorem bind_eq_ok {x : Outcome α} {f : α → Outcome β} {b : β} :
    (x >>= f) = .ok b ↔ ∃ a, x = .ok a ∧ f a = .ok b := by
  cases x with
  | error e => simp [bind, Except.bind]
  | ok a => simp [bind, Except.bind]

/-- A sequence fails as its first failing step does. -/
theorem bind_eq_error {x : Outcome α} {f : α → Outcome β} {e : Fault} :
    (x >>= f) = .error e ↔ x = .error e ∨ ∃ a, x = .ok a ∧ f a = .error e := by
  cases x with
  | error e' => simp [bind, Except.bind]
  | ok a => simp [bind, Except.bind]

/-- Later steps matter where the first one has a value. -/
theorem bind_congr_of_ok {x : Outcome α} {f g : α → Outcome β} (h : ∀ a, x = .ok a → f a = g a) :
    (x >>= f) = (x >>= g) := by
  cases x with
  | error e => rfl
  | ok a => exact h a rfl

theorem map_eq_error {x : Outcome α} {f : α → β} {e : Fault} :
    x.map f = .error e ↔ x = .error e := by
  cases x with
  | error e' => simp [Except.map]
  | ok a => simp [Except.map]

theorem pure_eq_ok {a b : α} : (pure a : Outcome α) = .ok b ↔ a = b := by
  simp [pure, Except.pure]

theorem map_eq_ok {x : Outcome α} {f : α → β} {b : β} :
    x.map f = .ok b ↔ ∃ a, x = .ok a ∧ f a = b := by
  cases x with
  | error e => simp [Except.map]
  | ok a => simp [Except.map]

/-- The results of a step on every item stand in the order of the items. -/
theorem forall₂_of_mapAll {f : α → Outcome β} {xs : List α} {ys : List β}
    (h : mapAll f xs = .ok ys) : List.Forall₂ (fun x y => f x = .ok y) xs ys := by
  induction xs generalizing ys with
  | nil =>
    obtain rfl : [] = ys := by simpa [mapAll] using h
    exact .nil
  | cons x xs ih =>
    obtain ⟨y, hy, h⟩ := bind_eq_ok.1 h
    obtain ⟨ys', hys, h⟩ := bind_eq_ok.1 h
    obtain rfl := pure_eq_ok.1 h
    exact .cons hy (ih hys)

theorem mapAll_append (f : α → Outcome β) (xs ys : List α) :
    mapAll f (xs ++ ys) =
      mapAll f xs >>= fun first => mapAll f ys >>= fun second => pure (first ++ second) := by
  induction xs with
  | nil => cases h : mapAll f ys <;> simp [mapAll, h, bind, Except.bind, pure, Except.pure]
  | cons x xs ih => simp only [List.cons_append, mapAll, ih, bind_assoc, pure_bind]

theorem mapAll_congr {f g : α → Outcome β} {xs : List α} (h : ∀ x ∈ xs, f x = g x) :
    mapAll f xs = mapAll g xs := by
  induction xs with
  | nil => rfl
  | cons x xs ih =>
    rw [mapAll, mapAll, h x List.mem_cons_self, ih fun y hy => h y (List.mem_cons_of_mem _ hy)]

/-- A step has a value for every item exactly when it has one for each. -/
theorem exists_mapAll_eq_ok_iff {f : α → Outcome β} {xs : List α} :
    (∃ ys, mapAll f xs = .ok ys) ↔ ∀ x ∈ xs, ∃ y, f x = .ok y := by
  induction xs with
  | nil => simp [mapAll]
  | cons x xs ih =>
    rw [List.forall_mem_cons, ← ih]
    constructor
    · rintro ⟨ys, h⟩
      obtain ⟨y, hy, h⟩ := bind_eq_ok.1 h
      obtain ⟨ys', hys, -⟩ := bind_eq_ok.1 h
      exact ⟨⟨y, hy⟩, ys', hys⟩
    · rintro ⟨⟨y, hy⟩, ys, hys⟩
      exact ⟨y :: ys, bind_eq_ok.2 ⟨y, hy, bind_eq_ok.2 ⟨ys, hys, rfl⟩⟩⟩

theorem mem_of_mapAll {f : α → Outcome β} {xs : List α} {ys : List β} {y : β}
    (h : mapAll f xs = .ok ys) : y ∈ ys ↔ ∃ x ∈ xs, f x = .ok y := by
  have hsame : ∀ {x z}, f x = .ok z → (f x = .ok y ↔ y = z) := by
    intro x z hz
    rw [hz, Except.ok.injEq, eq_comm]
  induction xs generalizing ys with
  | nil =>
    obtain rfl : [] = ys := by simpa [mapAll] using h
    simp
  | cons x xs ih =>
    obtain ⟨z, hz, h⟩ := bind_eq_ok.1 h
    obtain ⟨ys', hys, h⟩ := bind_eq_ok.1 h
    obtain rfl := pure_eq_ok.1 h
    rw [List.mem_cons, List.exists_mem_cons_iff]
    exact or_congr (hsame hz).symm (ih hys)

/-- Every result has the item it comes from. -/
theorem exists_of_forall₂ {R : α → β → Prop} {xs : List α} {ys : List β} {y : β}
    (h : List.Forall₂ R xs ys) (hy : y ∈ ys) : ∃ x ∈ xs, R x y := by
  induction h with
  | nil => simp at hy
  | @cons x y' xs ys hxy _ ih =>
    rcases List.mem_cons.1 hy with rfl | hy
    · exact ⟨x, List.mem_cons_self, hxy⟩
    · obtain ⟨x', hx', hR⟩ := ih hy
      exact ⟨x', List.mem_cons_of_mem _ hx', hR⟩

/-- Every item has the result that stands in its place. -/
theorem exists_getElem?_of_forall₂ {R : α → β → Prop} {xs : List α} {ys : List β} {x : α} {i : Nat}
    (h : List.Forall₂ R xs ys) (hx : xs[i]? = some x) : ∃ y, ys[i]? = some y ∧ R x y := by
  induction h generalizing i with
  | nil => simp at hx
  | @cons x' y' xs ys hxy _ ih =>
    cases i with
    | zero =>
      obtain rfl : x' = x := by simpa using hx
      exact ⟨y', rfl, hxy⟩
    | succ i => exact ih hx

end Outcome

namespace Noted

variable {α β : Type}

@[simp] theorem outcome_map (m : Noted α) (f : α → β) :
    outcome (f <$> m) = (outcome m).map f := by
  show outcome (m >>= fun a => pure (f a)) = _
  rw [outcome_bind]
  cases outcome m <;> rfl

/-- A sequence with notices, taken apart like one without. -/
theorem outcome_bind_eq_ok {m : Noted α} {f : α → Noted β} {b : β} :
    outcome (m >>= f) = .ok b ↔ ∃ a, outcome m = .ok a ∧ outcome (f a) = .ok b := by
  rw [outcome_bind]
  exact Outcome.bind_eq_ok

theorem outcome_pure_eq_ok {a b : α} : outcome (pure a : Noted α) = .ok b ↔ a = b := by
  simp

theorem outcome_map_eq_ok {m : Noted α} {f : α → β} {b : β} :
    outcome (f <$> m) = .ok b ↔ ∃ a, outcome m = .ok a ∧ f a = b := by
  rw [outcome_map]
  exact Outcome.map_eq_ok

/-- A step that never fails can be done for every item. -/
theorem outcome_forIn {xs : List α} {f : α → Noted Unit}
    (h : ∀ x ∈ xs, outcome (f x) = .ok ()) :
    outcome (forIn xs PUnit.unit fun x _ => do
      f x
      pure (.yield PUnit.unit)) = .ok PUnit.unit := by
  induction xs with
  | nil => rfl
  | cons x xs ih =>
    rw [List.forIn_cons, outcome_bind, outcome_bind, h x List.mem_cons_self]
    exact ih fun y hy => h y (List.mem_cons_of_mem _ hy)

/-- A step with its notices, and the next one with its own. -/
theorem run_bind {m : Noted α} {f : α → Noted β} {a : α} {b : β} {before after : List Notice}
    (hm : m.run = .ok (a, before)) (hf : (f a).run = .ok (b, after)) :
    (m >>= f).run = .ok (b, before ++ after) := by
  show (andThen m f).run = _
  simp only [andThen, hm, hf]

theorem run_map {m : Noted α} {f : α → β} {a : α} {notices : List Notice}
    (hm : m.run = .ok (a, notices)) : (f <$> m).run = .ok (f a, notices) := by
  have hpure := run_bind (f := fun a => pure (f a)) hm rfl
  rwa [List.append_nil] at hpure

/-- Notices that are given one by one are given in their order. -/
theorem run_forIn_note (xs : List α) (f : α → Notice) :
    (forIn xs PUnit.unit fun x _ => do
      note (f x)
      pure (.yield PUnit.unit)).run = .ok (PUnit.unit, xs.map f) := by
  induction xs with
  | nil => rfl
  | cons x xs ih =>
    have hnote : (do note (f x); pure (.yield PUnit.unit) : Noted (ForInStep PUnit)).run =
        .ok (.yield PUnit.unit, [f x]) := rfl
    rw [List.forIn_cons, List.map_cons]
    exact run_bind hnote ih

end Noted

end ApiSnippets
