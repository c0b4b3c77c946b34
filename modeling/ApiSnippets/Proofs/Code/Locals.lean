import Mathlib.Data.List.Nodup
import Mathlib.Data.List.Perm.Subperm
import ApiSnippets.Code.Locals
import ApiSnippets.Proofs.Naming
import ApiSnippets.Proofs.Number.Text
/-!
# Names that are free

A free name is looked for among one more candidates than there are names
taken. The candidates are all different, so one of them is free: whatever the
hint and whatever became of it by casing and escaping, a new name is none of
those taken (`allocate_not_mem`). It is also a name to read: where hints are
written in camel case, it has letters, digits and underscores only
(`isName_allocate`).
-/

namespace ApiSnippets

namespace Locals

variable {base : String} {taken : List String}

theorem numbered_injective : Function.Injective (numbered base) := by
  intro m n h
  have hnumber : toString (m + 1) = toString (n + 1) := (String.append_right_inj base).1 h
  rw [Nat.toString_eq_ofList_toDigits, Nat.toString_eq_ofList_toDigits] at hnumber
  have hdigits := congrArg (Nat.ofDigitChars 10 · 0) (String.ofList_inj.1 hnumber)
  simp only [Nat.ofDigitChars_ten_toDigits] at hdigits
  omega

theorem ne_numbered (n : Nat) : base ≠ numbered base n := by
  intro h
  have hempty : "" = Nat.repr (n + 1) :=
    (String.append_right_inj base).1 (String.append_empty.trans h)
  exact Nat.repr_ne_empty hempty.symm

/-- The names among which a free one is looked for. -/
def candidates (taken : List String) (base : String) : List String :=
  base :: (List.range taken.length).map (numbered base)

theorem nodup_candidates : (candidates taken base).Nodup := by
  refine List.nodup_cons.2 ⟨?_, List.nodup_range.map numbered_injective⟩
  intro h
  obtain ⟨n, -, hn⟩ := List.mem_map.1 h
  exact ne_numbered n hn.symm

/-- There are more candidates than names taken. -/
theorem exists_free (taken : List String) (base : String) :
    ∃ name ∈ candidates taken base, name ∉ taken := by
  by_contra hall
  push Not at hall
  have hle := (nodup_candidates.subperm hall).length_le
  rw [candidates, List.length_cons, List.length_map, List.length_range] at hle
  omega

theorem firstFree_mem : firstFree taken base ∈ candidates taken base := by
  show ((candidates taken base).find? fun name => !taken.contains name).getD base ∈ _
  cases hfind : (candidates taken base).find? fun name => !taken.contains name with
  | none => exact List.mem_cons_self
  | some found => exact List.mem_of_find?_eq_some hfind

/-- What is free is the base itself or has a number behind it. -/
theorem firstFree_cases :
    firstFree taken base = base ∨ ∃ n, firstFree taken base = numbered base n := by
  have hmem : firstFree taken base ∈ candidates taken base := firstFree_mem
  rcases List.mem_cons.1 hmem with h | h
  · exact .inl h
  · obtain ⟨n, -, hn⟩ := List.mem_map.1 h
    exact .inr ⟨n, hn.symm⟩

theorem firstFree_not_mem : firstFree taken base ∉ taken := by
  obtain ⟨name, hname, hfree⟩ := exists_free taken base
  show ((candidates taken base).find? fun name => !taken.contains name).getD base ∉ taken
  cases hfind : (candidates taken base).find? fun name => !taken.contains name with
  | none =>
    have := List.find?_eq_none.1 hfind name hname
    simp [hfree] at this
  | some found => simpa using List.find?_some hfind

/-- **A new name is none of those taken.** -/
theorem allocate_not_mem (d : Dialect) (taken : List String) (hint : String) :
    (allocate d taken hint).1 ∉ taken :=
  firstFree_not_mem

/-! ## Characters of names -/

/-- A character of a name. -/
def isNameChar (c : Char) : Bool :=
  Naming.isWordChar c || c == '_'

/-- A name as a variable can have it. -/
structure IsName (name : String) : Prop where
  ne_nil : name.toList ≠ []
  chars : ∀ c ∈ name.toList, isNameChar c = true

instance (name : String) : Decidable (IsName name) :=
  decidable_of_iff (name.toList ≠ [] ∧ name.toList.all isNameChar = true)
    ⟨fun h => ⟨h.1, List.all_eq_true.1 h.2⟩, fun h => ⟨h.ne_nil, List.all_eq_true.2 h.chars⟩⟩

variable {name : String} {d : Dialect}

theorem IsName.append {ending : String} (h : IsName name)
    (hending : ∀ c ∈ ending.toList, isNameChar c = true) : IsName (name ++ ending) where
  ne_nil := by simp [String.toList_append, h.ne_nil]
  chars := by
    rw [String.toList_append]
    exact List.forall_mem_append.2 ⟨h.chars, hending⟩

theorem isNameChar_camel (hint : String) :
    ∀ c ∈ (Naming.camel hint).toList, isNameChar c = true := by
  intro c hc
  rw [Naming.camel, String.toList_ofList] at hc
  simp [isNameChar, Naming.isWordChar_of_mem_camelChars hc]

theorem isNameChar_pascal (name : String) :
    ∀ c ∈ (Naming.pascal name).toList, isNameChar c = true := by
  intro c hc
  rw [Naming.pascal, String.toList_ofList] at hc
  simp [isNameChar, Naming.isWordChar_of_mem_pascalChars hc]

theorem IsName.escape (hsafe : d.safe = (· ++ "_")) (h : IsName name) :
    IsName (d.escape name) := by
  unfold Dialect.escape
  split
  · rw [hsafe]
    exact h.append (List.all_eq_true.1 (by decide))
  · exact h

/-- The name to begin with for a hint is a name. -/
theorem isName_base (hcase : d.variableCase = Naming.camel) (hsafe : d.safe = (· ++ "_"))
    (hint : String) : IsName (Locals.base d hint) := by
  have hcased : IsName (if (Naming.camel hint).isEmpty then "value" else Naming.camel hint) := by
    split
    · decide
    · next hne => exact ⟨by simpa using hne, isNameChar_camel hint⟩
  rw [Locals.base, hcase]
  exact hcased.escape hsafe

/-- **A new name is a name.** -/
theorem isName_allocate (hcase : d.variableCase = Naming.camel) (hsafe : d.safe = (· ++ "_"))
    (taken : List String) (hint : String) : IsName (allocate d taken hint).1 := by
  have hbase : IsName (Locals.base d hint) := isName_base hcase hsafe hint
  show IsName (firstFree taken (Locals.base d hint))
  obtain hfree | ⟨n, hfree⟩ : _ ∨ ∃ n, firstFree taken (Locals.base d hint) =
      numbered (Locals.base d hint) n := firstFree_cases
  · rw [hfree]
    exact hbase
  · rw [hfree]
    refine hbase.append fun c hc => ?_
    simp [isNameChar, Number.isWordChar_of_mem_toString hc]

end Locals

end ApiSnippets
