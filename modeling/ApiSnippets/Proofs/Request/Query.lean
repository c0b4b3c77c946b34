import ApiSnippets.Proofs.Outcome
import ApiSnippets.Proofs.Text.Case
import ApiSnippets.Request.Query
/-!
# Query strings that cannot be read

A query string has one fault: digits that stand for no integer, in a value
that is taken for one (`parse_eq_error`). Superscripts are such digits, and so
are runs of digits that are too long. Where the name of the option or the
parameter that the operation declares gives the value another type, the digits
are kept as they are.
-/

namespace ApiSnippets

/-! ## Digits name no truth value -/

namespace Text

variable {c b : Char}

theorem lowerChar_of_isDigit (h : isDigit c = true) :
    ∃ b bs, lowerChar c = b :: bs ∧ b ≠ 't' ∧ b ≠ 'f' := by
  obtain ⟨b, bs, hlower⟩ := List.exists_cons_of_ne_nil (lowerChar_ne_nil c)
  by_cases hascii : c.toNat < 128
  · have hall : ∀ n < 128, isDigit (Char.ofNat n) = true →
        (Char.ofNat n).toLower ≠ 't' ∧ (Char.ofNat n).toLower ≠ 'f' := by decide +kernel
    exact ⟨c.toLower, [], lowerChar_of_ascii hascii,
      of_ascii (P := fun c => isDigit c = true → c.toLower ≠ 't' ∧ c.toLower ≠ 'f') hall hascii h⟩
  · -- beyond ASCII only an `i` and a `k` have an upper case
    have hbeyond : ∀ d, d = 't' ∨ d = 'f' → b ≠ d := by
      rintro d hd rfl
      have hmem : b ∈ lowerChar c := hlower ▸ List.mem_cons_self
      rcases lowerChar_beyond hascii hmem (by rcases hd with rfl | rfl <;> decide)
        (by rcases hd with rfl | rfl <;> decide) with ⟨-, hi⟩ | ⟨-, hk⟩
      · rw [hi] at hlower
        obtain ⟨rfl, -⟩ := List.cons.inj hlower
        exact absurd hd (by decide)
      · rw [hk] at hlower
        obtain ⟨rfl, -⟩ := List.cons.inj hlower
        exact absurd hd (by decide)
    exact ⟨b, bs, hlower, hbeyond _ (.inl rfl), hbeyond _ (.inr rfl)⟩

/-- The lower case of a text that begins with a sign or a digit begins with
neither a `t` nor an `f`. -/
theorem lowerChars_of_isDigit (cs : List Char) (h : c = '-' ∨ isDigit c = true) :
    ∃ b bs, lowerChars (c :: cs) = b :: bs ∧ b ≠ 't' ∧ b ≠ 'f' := by
  obtain ⟨b, bs, hlower, ht, hf⟩ : ∃ b bs, lowerChar c = b :: bs ∧ b ≠ 't' ∧ b ≠ 'f' := by
    rcases h with rfl | h
    · exact ⟨'-', [], by decide, by decide, by decide⟩
    · exact lowerChar_of_isDigit h
  have hsigma : c ≠ 'Σ' := by
    rintro rfl
    exact absurd h (by decide)
  exact ⟨b, _, by rw [lowerChars, lowerFrom, if_neg hsigma, hlower, List.cons_append], ht, hf⟩

end Text

namespace Query

variable {operation : Option Operation} {query value : String} {systemName : Option String}
  {shape : Option Shape} {pair : List Char} {e : Fault}

theorem head_of_isIntegral (h : Number.isIntegral value = true) :
    ∃ c cs, value.toList = c :: cs ∧ (c = '-' ∨ Text.isDigit c = true) := by
  unfold Number.isIntegral at h
  split at h
  · next cs hcs => exact ⟨_, cs, hcs, .inl rfl⟩
  · cases hvalue : value.toList with
    | nil => simp [hvalue] at h
    | cons c cs =>
      rw [hvalue] at h
      simp only [List.all_cons, Bool.and_eq_true] at h
      exact ⟨c, cs, rfl, .inr h.2.1⟩

/-- **A text of digits is no truth value**, in any script. -/
theorem truth?_of_isIntegral (h : Number.isIntegral value = true) : truth? value = none := by
  obtain ⟨c, cs, hvalue, hc⟩ := head_of_isIntegral h
  obtain ⟨b, bs, hlower, ht, hf⟩ := Text.lowerChars_of_isDigit cs hc
  have hname : Text.lower value = String.ofList (b :: bs) := by
    rw [Text.lower, hvalue, hlower]
  have hne : ∀ s : String, s.toList.head? ≠ some b → Text.lower value ≠ s := by
    rintro s hs rfl
    rw [hname] at hs
    simp at hs
  unfold truth?
  rw [if_neg (hne "true" (by simpa using ht.symm)), if_neg (hne "false" (by simpa using hf.symm))]

/-! ## Values that cannot be typed -/

/-- A value that consists of digits and stands for no integer. -/
def IsValueless (value : String) : Prop :=
  Number.isIntegral value = true ∧ Number.signedValue? value.toList = none

/-- That a value of digits is taken for an integer: the name of a system option
takes it for one, or neither the name nor the declared shape takes it for
something else. -/
def TakesInteger (systemName : Option String) (shape : Option Shape) (value : String) : Prop :=
  (∀ name ∈ systemName, name ∉ ["select", "expand", "orderby"]) ∧
    ((∃ name ∈ systemName, name ∈ ["top", "skip"]) ∨
      ∀ s ∈ shape, s.kind ∉ [.array, .string, .enum] ∧
        (s.kind = .number → Number.lenientFloat? value.toList = none))

theorem asInteger?_eq_error (h : asInteger? value = some (.error e)) :
    e = .defect .value ∧ IsValueless value := by
  unfold asInteger? at h
  split at h
  · next hdigits =>
    have hinteger : integer value = .error e := Outcome.map_eq_error.1 (Option.some.inj h)
    unfold integer at hinteger
    split at hinteger
    · simp at hinteger
    · next hnone =>
      obtain rfl := Except.error.inj hinteger
      exact ⟨rfl, hdigits, hnone⟩
  · simp at h

theorem asBoolean?_ne_error : asBoolean? value ≠ some (.error e) := by
  unfold asBoolean?
  cases truth? value <;> simp

namespace IsValueless

variable (h : IsValueless value)
include h

theorem asInteger?_eq : asInteger? value = some (.error (.defect .value)) := by
  obtain ⟨hdigits, hnone⟩ := h
  unfold asInteger? integer
  rw [if_pos hdigits, hnone]
  rfl

theorem asBoolean?_eq : asBoolean? value = none := by
  unfold asBoolean?
  rw [truth?_of_isIntegral h.1]
  rfl

theorem byLooks_eq : byLooks value = .error (.defect .value) := by
  unfold byLooks
  rw [h.asBoolean?_eq, h.asInteger?_eq]
  rfl

/-- What a system option's name makes of such a value. -/
theorem bySystemName?_eq (name : String) :
    bySystemName? name value =
      if name ∈ ["select", "expand", "orderby"] then some (asList value)
      else if name ∈ ["top", "skip"] then some (.error (.defect .value)) else none := by
  unfold bySystemName?
  rw [h.asInteger?_eq, h.asBoolean?_eq]
  simp only [List.contains_iff_mem, ite_self]

/-- Without a system name, the declared shape decides. -/
theorem byShape_eq_error_iff :
    (shape.bind (byShape? · value)).getD (byLooks value) = .error (.defect .value) ↔
      ∀ s ∈ shape, s.kind ∉ [.array, .string, .enum] ∧
        (s.kind = .number → Number.lenientFloat? value.toList = none) := by
  cases shape with
  | none => simp [h.byLooks_eq]
  | some s =>
    simp only [Option.bind_some, Option.mem_def, Option.some.injEq, forall_eq', byShape?]
    cases hk : s.kind with
    | number => cases hx : Number.lenientFloat? value.toList <;> simp [h.byLooks_eq]
    | _ => simp [asList, h.byLooks_eq, h.asInteger?_eq, h.asBoolean?_eq]

theorem typed_eq_error_iff :
    typed systemName shape value = .error (.defect .value) ↔
      TakesInteger systemName shape value := by
  unfold typed TakesInteger
  rw [← h.byShape_eq_error_iff]
  cases systemName with
  | none => simp
  | some name =>
    simp only [Option.bind_some, Option.mem_def, Option.some.injEq, forall_eq', exists_eq_left',
      h.bySystemName?_eq]
    -- the names of lists, of numbers, and of neither, which leave it to the shape
    by_cases hlist : name ∈ ["select", "expand", "orderby"]
    · simp [hlist, asList]
    · by_cases hnumber : name ∈ ["top", "skip"]
      · simp [hlist, hnumber]
      · simp [hlist, hnumber]

end IsValueless

/-- What is decided by the first of two rules that decides, and else by
default. -/
theorem of_getD_or {α : Type} {first second : Option α} {default r : α}
    (h : (first.or second).getD default = r) : first = some r ∨ second = some r ∨ default = r := by
  cases first with
  | some a => exact .inl (congrArg some h)
  | none =>
    cases second with
    | some b => exact .inr (.inl (congrArg some h))
    | none => exact .inr (.inr h)

theorem byLooks_eq_error (h : byLooks value = .error e) : asInteger? value = some (.error e) := by
  rcases of_getD_or h with hb | hi | htext
  · exact absurd hb asBoolean?_ne_error
  · exact hi
  · cases htext

theorem bySystemName?_eq_error {name : String} (h : bySystemName? name value = some (.error e)) :
    asInteger? value = some (.error e) := by
  unfold bySystemName? at h
  split at h
  · simp [asList] at h
  · split at h
    · exact h
    · split at h
      · exact absurd h asBoolean?_ne_error
      · simp at h

theorem byShape?_eq_error {s : Shape} (h : byShape? s value = some (.error e)) :
    asInteger? value = some (.error e) := by
  unfold byShape? at h
  cases hk : s.kind with
  | integer => simpa [hk] using h
  | boolean =>
    rw [hk] at h
    exact absurd h asBoolean?_ne_error
  | _ => simp [hk, asList] at h

/-- Whatever decides the type of a value, only digits cannot be typed. -/
theorem isValueless_of_typed_eq_error (h : typed systemName shape value = .error e) :
    e = .defect .value ∧ IsValueless value := by
  refine asInteger?_eq_error ?_
  rcases of_getD_or h with hn | hs | hlooks
  · obtain ⟨name, -, hn⟩ := Option.bind_eq_some_iff.1 hn
    exact bySystemName?_eq_error hn
  · obtain ⟨s, -, hs⟩ := Option.bind_eq_some_iff.1 hs
    exact byShape?_eq_error hs
  · exact byLooks_eq_error hlooks

/-- **A value cannot be typed** when it consists of digits, stands for no
integer and is taken for one. -/
theorem typed_eq_error :
    typed systemName shape value = .error e ↔
      e = .defect .value ∧ IsValueless value ∧ TakesInteger systemName shape value := by
  constructor
  · intro h
    obtain ⟨rfl, hvalue⟩ := isValueless_of_typed_eq_error h
    exact ⟨rfl, hvalue, hvalue.typed_eq_error_iff.1 h⟩
  · rintro ⟨rfl, hvalue, htakes⟩
    exact hvalue.typed_eq_error_iff.2 htakes

/-! ## Pairs and query strings -/

/-- The name of a pair as it is written, decoded. -/
def pairName (pair : List Char) : List Char :=
  Text.strip (Text.queryDecode (Text.cutAt '=' pair).1)

/-- The value of a pair as it is typed. -/
def pairValue (pair : List Char) : String :=
  String.ofList (Text.queryDecode ((Text.cutAt '=' pair).2.getD []))

/-- The name by which a pair is a system option. -/
def pairSystemName? (pair : List Char) : Option String :=
  if (pairName pair).head? = some '$' then
    some (Text.lower (String.ofList (canonicalChars (Text.cutAt '=' pair).1)))
  else none

/-- The shape that an operation declares for a pair. -/
def pairShape? (operation : Option Operation) (pair : List Char) : Option Shape :=
  (operation.bind
    (·.queryParameter? (String.ofList (canonicalChars (Text.cutAt '=' pair).1)))).map (·.shape)

/-- That a pair is an option whose value consists of digits, stands for no
integer and is taken for one. -/
structure Unreadable (operation : Option Operation) (pair : List Char) : Prop where
  named : pairName pair ≠ []
  valueless : IsValueless (pairValue pair)
  taken : TakesInteger (pairSystemName? pair) (pairShape? operation pair) (pairValue pair)

/-- The option of a pair whose value is typed. -/
def pairOption (pair : List Char) (t : Typed) : QueryOption where
  name := String.ofList (canonicalChars (Text.cutAt '=' pair).1)
  rawName := String.ofList (pairName pair)
  system := (pairName pair).head? == some '$'
  kind := t.1
  value := t.2

/-- A named pair is an option as soon as its value can be typed. -/
theorem optionOf_eq (operation : Option Operation) (pair : List Char) :
    optionOf operation pair =
      if (pairName pair).isEmpty then .ok none
      else (typed (pairSystemName? pair) (pairShape? operation pair) (pairValue pair)).map
        (some ∘ pairOption pair) := by
  unfold optionOf pairSystemName? pairShape? pairValue
  simp only [beq_iff_eq]
  rfl

theorem optionOf_eq_error :
    optionOf operation pair = .error e ↔ e = .defect .value ∧ Unreadable operation pair := by
  rw [optionOf_eq]
  by_cases hname : pairName pair = []
  · simp only [hname, List.isEmpty_nil, if_true, reduceCtorEq, false_iff, not_and]
    intro _ hunreadable
    exact hunreadable.named hname
  · rw [if_neg (by simpa using hname), Outcome.map_eq_error, typed_eq_error]
    constructor
    · rintro ⟨rfl, hvalue, htaken⟩
      exact ⟨rfl, hname, hvalue, htaken⟩
    · rintro ⟨rfl, hunreadable⟩
      exact ⟨rfl, hunreadable.valueless, hunreadable.taken⟩

theorem collect_eq_error {pairs : List (List Char)} {options : Entries String QueryOption} :
    collect operation options pairs = .error e ↔
      e = .defect .value ∧ ∃ pair ∈ pairs, Unreadable operation pair := by
  induction pairs generalizing options with
  | nil => simp [collect]
  | cons pair pairs ih =>
    rw [collect, Outcome.bind_eq_error, List.exists_mem_cons_iff]
    constructor
    · rintro (h | ⟨option, -, h⟩)
      · obtain ⟨rfl, hunreadable⟩ := optionOf_eq_error.1 h
        exact ⟨rfl, .inl hunreadable⟩
      · have hmore : e = .defect .value ∧ ∃ pair ∈ pairs, Unreadable operation pair := by
          cases option with
          | some o => exact ih.1 h
          | none => exact ih.1 h
        exact ⟨hmore.1, .inr hmore.2⟩
    · rintro ⟨rfl, hunreadable | hmore⟩
      · exact .inl (optionOf_eq_error.2 ⟨rfl, hunreadable⟩)
      · -- this pair may fail before that one does, and it fails in the same way
        cases hoption : optionOf operation pair with
        | error e =>
          obtain ⟨rfl, -⟩ := optionOf_eq_error.1 hoption
          exact .inl rfl
        | ok option =>
          refine .inr ⟨option, rfl, ?_⟩
          cases option with
          | some o => exact ih.2 ⟨rfl, hmore⟩
          | none => exact ih.2 ⟨rfl, hmore⟩

/-- **A query string cannot be read** when one of its pairs is an option whose
value consists of digits, stands for no integer and is taken for one. -/
theorem parse_eq_error :
    parse query operation = .error e ↔
      e = .defect .value ∧ ∃ pair ∈ Text.splitAll '&' query.toList, Unreadable operation pair := by
  unfold parse
  rw [Outcome.map_eq_error, collect_eq_error]

/-- A query string is read when none of its pairs is such an option. -/
theorem exists_parse :
    (∃ options, parse query operation = .ok options) ↔
      ∀ pair ∈ Text.splitAll '&' query.toList, ¬ Unreadable operation pair := by
  cases hparse : parse query operation with
  | ok options =>
    simp only [Except.ok.injEq, exists_eq', true_iff]
    intro pair hpair hunreadable
    have herror : parse query operation = .error (.defect .value) :=
      parse_eq_error.2 ⟨rfl, pair, hpair, hunreadable⟩
    simp [hparse] at herror
  | error e =>
    obtain ⟨-, pair, hpair, hunreadable⟩ := parse_eq_error.1 hparse
    simp only [reduceCtorEq, exists_const, false_iff]
    intro hall
    exact hall pair hpair hunreadable

example : parse "$top=²" none = .error (.defect .value) := rfl

end Query

end ApiSnippets
