import Mathlib.Data.List.ReduceOption
import Mathlib.Logic.Function.Iterate
/-!
# Recursions taken level by level

A function that calls itself makes something of the results of the calls that
are nested in it. When a measure becomes smaller with every nested call, calls
are nested no deeper than the measure, so nothing below that depth has an
influence (`iterate_eq`), and the function is found by as many levels. When
every call adds what it visits to what has been visited, nothing is visited
twice (`Chain.nodup`).
-/

namespace ApiSnippets

/-- One level of a recursion, and the calls nested in it, each with what it
visits. The level depends on nothing but the results of these calls. -/
structure Recursion (σ β : Type) where
  level : (σ → β) → σ → β
  Calls : σ → Option String → σ → Prop
  congr {f g : σ → β} {s : σ} (h : ∀ visit t, Calls s visit t → f t = g t) :
    level f s = level g s

namespace Recursion

variable {σ β : Type} {R : Recursion σ β} {s t : σ} {path : List (Option String)}

/-- Calls nested in each other, with what they visit one after the other. -/
inductive Chain (R : Recursion σ β) : σ → List (Option String) → σ → Prop
  | nil (s : σ) : Chain R s [] s
  | cons {s t u : σ} {visit : Option String} {path : List (Option String)}
      (h : R.Calls s visit t) (rest : Chain R t path u) : Chain R s (visit :: path) u

/-! ## Depth -/

/-- **Levels are enough**: what is below the measure has no influence. -/
theorem iterate_eq (R : Recursion σ β) {s : σ} {f : σ → β} {measure : σ → Nat}
    (hf : ∀ s, f s = R.level f s)
    (hmeasure : ∀ s visit t, R.Calls s visit t → measure t < measure s) {n : Nat}
    (hn : measure s < n) (rest : σ → β) : R.level^[n] rest s = f s := by
  induction n generalizing s with
  | zero => omega
  | succ n ih =>
    -- the level on top is the function's own once the calls nested in it are
    rw [Function.iterate_succ_apply', hf s]
    refine R.congr fun visit t ht => ih ?_
    have hlt := hmeasure s visit t ht
    omega

/-- Each call of a chain makes a measure smaller. -/
theorem Chain.length_le (measure : σ → Nat) (h : R.Chain s path t)
    (hmeasure : ∀ s, ∀ visit ∈ path, ∀ t, R.Calls s visit t → measure t < measure s) :
    measure t + path.length ≤ measure s := by
  induction h with
  | nil s => simp
  | cons hcall _ ih =>
    have hfirst := hmeasure _ _ List.mem_cons_self _ hcall
    have hrest := ih fun s visit hvisit => hmeasure s visit (List.mem_cons_of_mem _ hvisit)
    simp only [List.length_cons]
    omega

/-! ## Visits -/

/-- That every call adds what it visits to what has been visited, and visits
only what has not been. -/
def Remembers (R : Recursion σ β) (visited : σ → List String) : Prop :=
  ∀ s visit t, R.Calls s visit t →
    visited t = visit.toList ++ visited s ∧ ∀ r ∈ visit, r ∉ visited s

/-- **Nothing is visited twice** by calls that are nested in each other. -/
theorem Chain.nodup {visited : σ → List String} (hR : R.Remembers visited)
    (h : R.Chain s path t) :
    path.reduceOption.Nodup ∧ ∀ r ∈ path.reduceOption, r ∉ visited s := by
  induction h with
  | nil s => simp
  | @cons s t u visit path hcall _ ih =>
    obtain ⟨hvisited, hfresh⟩ := hR s visit t hcall
    obtain ⟨hnodup, hnew⟩ := ih
    rw [hvisited] at hnew
    cases visit with
    | none => exact ⟨hnodup, hnew⟩
    | some r =>
      -- what the first call visits has been visited for all the later ones
      rw [List.reduceOption_cons_of_some]
      refine ⟨List.nodup_cons.2 ⟨fun hr => hnew r hr (by simp), hnodup⟩, ?_⟩
      intro r' hr'
      rcases List.mem_cons.1 hr' with rfl | hr'
      · exact hfresh r' rfl
      · exact fun hmem => hnew r' hr' (List.mem_append_right _ hmem)

end Recursion

end ApiSnippets
