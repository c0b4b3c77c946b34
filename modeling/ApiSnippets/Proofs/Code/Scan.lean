import ApiSnippets.Code.Scan
import ApiSnippets.Proofs.Text.Cut
/-!
# Scans stop at quotes

No constructor has a quote in it: neither what comes before the name of a type,
nor the name, nor what follows it. So a scan of a text finds what scans of the
parts between quotes find (`constructors_append`), and what it finds in a literal
does not depend on the code around it.
-/

namespace ApiSnippets

namespace Scan

/-- The characters around literals. -/
inductive IsQuote : Char → Prop
  | double : IsQuote '"'
  | single : IsQuote '\''

variable {q : Char} {w : Bool} {cs ds : List Char}

theorem isWord_of_isQuote (h : IsQuote q) : Text.isWord q = false := by
  cases h <;> rfl

theorem isBlank_of_isQuote (h : IsQuote q) : Text.isBlank q = false := by
  cases h <;> rfl

theorem isNameChar_of_isQuote (h : IsQuote q) : isNameChar q = false := by
  cases h <;> rfl

/-- What is not `new` with a character behind it begins with an opener or not at
all. -/
theorem afterStart?_of_ne_new {c : Char} (h : ∀ d tail, c :: cs ≠ 'n' :: 'e' :: 'w' :: d :: tail) :
    afterStart? w (c :: cs) = if isOpener c then some (cs.dropWhile Text.isBlank) else none := by
  unfold afterStart?
  split
  · next d tail heq => exact absurd heq (h d tail)
  · next heq =>
    obtain ⟨rfl, rfl⟩ := List.cons.inj heq
    rfl
  · next heq => cases heq

/-- No constructor has a quote before its name. -/
theorem afterStart?_append (h : IsQuote q) :
    afterStart? w (cs ++ q :: ds) = (afterStart? w cs).map (· ++ q :: ds) := by
  have hblank := isBlank_of_isQuote h
  cases cs with
  | nil => cases h <;> rfl
  | cons c cs =>
    by_cases hnew : ∃ d tail, c :: cs = 'n' :: 'e' :: 'w' :: d :: tail
    · obtain ⟨d, tail, hcs⟩ := hnew
      rw [hcs]
      simp only [List.cons_append, afterStart?, Text.dropWhile_append_stop hblank]
      split <;> rfl
    · rw [not_exists] at hnew
      rw [afterStart?_of_ne_new fun d tail => not_exists.1 (hnew d) tail]
      by_cases hend : c :: cs = ['n', 'e', 'w']
      · -- the quote stands where white space would have to be
        obtain ⟨rfl, rfl⟩ := List.cons.inj hend
        simp [afterStart?, hblank, isOpener]
      · rw [List.cons_append, afterStart?_of_ne_new]
        · split
          · rw [Text.dropWhile_append_stop hblank]
            rfl
          · rfl
        · intro d tail heq
          match cs, heq with
          | [], heq => cases h <;> simp at heq
          | [x], heq => cases h <;> simp at heq
          | [x, y], heq =>
            simp only [List.cons_append, List.nil_append, List.cons.injEq] at heq
            obtain ⟨rfl, rfl, rfl, -⟩ := heq
            exact hend rfl
          | x :: y :: z :: more, heq =>
            simp only [List.cons_append, List.cons.injEq] at heq
            obtain ⟨rfl, rfl, rfl, -⟩ := heq
            exact hnew z ⟨more, rfl⟩

/-- No constructor has a quote in its name or behind it. -/
theorem constructor?_append (h : IsQuote q) :
    constructor? (cs ++ q :: ds) = (constructor? cs).map fun c => (c.1, c.2 ++ q :: ds) := by
  have hname := isNameChar_of_isQuote h
  have hblank := isBlank_of_isQuote h
  have hhead : (cs ++ q :: ds).head?.any Naming.isUpper = cs.head?.any Naming.isUpper := by
    cases cs with
    | nil => cases h <;> rfl
    | cons c cs => rfl
  unfold constructor?
  rw [hhead, Text.dropWhile_append_stop hname, Text.dropWhile_append_stop hblank,
    Text.takeWhile_append_stop hname]
  split
  · cases hrest : (cs.dropWhile isNameChar).dropWhile Text.isBlank with
    | nil => cases h <;> rfl
    | cons c rest =>
      simp only [List.cons_append]
      split <;> rfl
  · rfl

/-- The constructor at the beginning of a text, and the rest. -/
def first? (w : Bool) (cs : List Char) : Option (List Char × List Char) :=
  (afterStart? w cs).bind constructor?

theorem first?_append (h : IsQuote q) :
    first? w (cs ++ q :: ds) = (first? w cs).map fun c => (c.1, c.2 ++ q :: ds) := by
  rw [first?, first?, afterStart?_append h]
  cases afterStart? w cs with
  | none => rfl
  | some after => exact constructor?_append h

theorem constructors_of_first?_eq_some {c : Char} {name rest : List Char}
    (h : first? w (c :: cs) = some (name, rest)) :
    constructors w (c :: cs) = name :: constructors false rest := by
  obtain ⟨after, hafter, hname⟩ := Option.bind_eq_some_iff.1 h
  rw [constructors]
  split
  · next found hfound =>
    obtain rfl := Option.some.inj (hfound.symm.trans hafter)
    split
    · next name' rest' hname' =>
      obtain ⟨rfl, rfl⟩ := Prod.mk.inj (Option.some.inj (hname'.symm.trans hname))
      rfl
    · next hnone =>
      rw [hname] at hnone
      cases hnone
  · next hnone =>
    rw [hafter] at hnone
    cases hnone

theorem constructors_of_first?_eq_none {c : Char} (h : first? w (c :: cs) = none) :
    constructors w (c :: cs) = constructors (Text.isWord c) cs := by
  rw [constructors]
  split
  · next after hafter =>
    split
    · next name rest hname =>
      rw [first?, hafter, Option.bind_some, hname] at h
      cases h
    · rfl
  · rfl

/-- **A scan finds what scans of the parts around a quote find.** -/
theorem constructors_append (h : IsQuote q) :
    constructors w (cs ++ q :: ds) = constructors w cs ++ constructors false ds := by
  induction hlen : cs.length using Nat.strongRecOn generalizing w cs with
  | _ n ih =>
    have hfirst : first? w (cs ++ q :: ds) = (first? w cs).map fun c => (c.1, c.2 ++ q :: ds) :=
      first?_append h
    cases cs with
    | nil =>
      have hnone : first? w (q :: ds) = none := hfirst
      rw [List.nil_append, constructors_of_first?_eq_none hnone, isWord_of_isQuote h, constructors]
      rfl
    | cons c cs =>
      rw [List.cons_append] at hfirst ⊢
      -- the scan goes on behind the first constructor, in front of the quote still
      cases hfound : first? w (c :: cs) with
      | none =>
        rw [hfound] at hfirst
        rw [constructors_of_first?_eq_none hfirst, constructors_of_first?_eq_none hfound]
        exact ih cs.length (by simp [← hlen]) rfl
      | some found =>
        obtain ⟨name, rest⟩ := found
        rw [hfound] at hfirst
        rw [constructors_of_first?_eq_some hfirst, constructors_of_first?_eq_some hfound,
          List.cons_append]
        have hlt : rest.length < n := by
          obtain ⟨after, hafter, hname⟩ := Option.bind_eq_some_iff.1 hfound
          have hafter := afterStart?_length hafter
          have hname := constructor?_length hname
          omega
        rw [ih rest.length hlt rfl]

/-- No constructor is without a capital letter. -/
theorem first?_eq_none (h : ∀ c ∈ cs, Naming.isUpper c = false) : first? w cs = none := by
  have hafter {after : List Char} (ha : afterStart? w cs = some after) : after ⊆ cs := by
    unfold afterStart? at ha
    split at ha
    · split at ha
      · obtain rfl := Option.some.inj ha
        exact fun c hc => List.mem_of_mem_drop (i := 4) ((List.dropWhile_suffix _).subset hc)
      · cases ha
    · split at ha
      · obtain rfl := Option.some.inj ha
        exact fun c hc => List.mem_cons_of_mem _ ((List.dropWhile_suffix _).subset hc)
      · cases ha
    · cases ha
  cases ha : afterStart? w cs with
  | none => rw [first?, ha]; rfl
  | some after =>
    have hhead : after.head?.any Naming.isUpper = false := by
      cases after with
      | nil => rfl
      | cons c rest => exact h c (hafter ha List.mem_cons_self)
    rw [first?, ha, Option.bind_some, constructor?, hhead]
    rfl

theorem constructors_eq_nil (h : ∀ c ∈ cs, Naming.isUpper c = false) : constructors w cs = [] := by
  induction cs generalizing w with
  | nil => rw [constructors]
  | cons c cs ih =>
    rw [constructors_of_first?_eq_none (first?_eq_none h)]
    exact ih fun d hd => h d (List.mem_cons_of_mem c hd)

/-! ## Names of models -/

/-- The names of models that a scan finds, as often as it finds them. -/
def modelNames (w : Bool) (cs : List Char) : List String :=
  ((constructors w cs).map String.ofList).filter isModelName

theorem typeNames_eq (text : String) : typeNames text = (modelNames false text.toList).eraseDups :=
  rfl

theorem modelNames_append (h : IsQuote q) :
    modelNames w (cs ++ q :: ds) = modelNames w cs ++ modelNames false ds := by
  rw [modelNames, constructors_append h, List.map_append, List.filter_append]
  rfl

theorem modelNames_nil : modelNames w [] = [] := by
  rw [modelNames, constructors]
  rfl

theorem modelNames_eq_nil (h : ∀ c ∈ cs, Naming.isUpper c = false) : modelNames w cs = [] := by
  rw [modelNames, constructors_eq_nil h]
  rfl

/-- A scan of quoted characters. -/
theorem modelNames_quoted (h : IsQuote q) :
    modelNames w (q :: (cs ++ [q])) = modelNames false cs := by
  rw [← List.nil_append (q :: _), modelNames_append h, modelNames_append h, modelNames_nil,
    modelNames_nil, List.nil_append, List.append_nil]

/-- A scan of a text with quoted characters in it. -/
theorem modelNames_around (h : IsQuote q) {before after : List Char} :
    modelNames w (before ++ (q :: (cs ++ [q]) ++ after)) =
      modelNames w before ++ (modelNames false (q :: (cs ++ [q])) ++ modelNames false after) := by
  rw [modelNames_quoted h, List.cons_append, List.append_assoc, List.singleton_append,
    modelNames_append h, modelNames_append h]

end Scan

end ApiSnippets
