import ApiSnippets.Proofs.Body.InlineObjects
import ApiSnippets.Proofs.Body.Numbers
import ApiSnippets.Proofs.Json
import ApiSnippets.Snippet
/-!
# Integers in code

A number of a body is in the graph as it is in the body; only the type beside
it follows from formats, kinds and looks. Whatever these say, a type without a
fraction is that of an integer, and one of 32 bits without a fraction that of an
integer that fits (`represents_numberType`). So the languages write every such
integer with all its digits, however many, and mark it as one of 64 bits
where 32 are too few (`integers_are_exact`).
-/

namespace ApiSnippets

/-- The number that a value is. -/
def Json.numeral? : Json → Option Numeral
  | .int n => some (.int n)
  | .num x => some (.num x)
  | _ => none

/-! ## Types of numbers -/

namespace Body

variable {ix : Index} {r : ResolvedRequest} {body v : Json} {s : Site} {shape : Option Shape}
  {near : Option String} {hint : String} {n : Int} {q : Numeral} {t : NumberType}

/-- That an integer fits in 32 bits: it is from the least signed one, `-2 ^ 31`,
to the greatest one. -/
def IsShort (n : Int) : Prop :=
  -2147483648 ≤ n ∧ n < 2147483648

instance (n : Int) : Decidable (IsShort n) :=
  inferInstanceAs (Decidable (_ ∧ _))

theorem fitsShort_iff : fitsShort n = true ↔ IsShort n := by
  simp [fitsShort, IsShort]

/-- That a type without a fraction is that of an integer, which fits in 32 bits
if the type has no more. -/
def Represents (t : NumberType) (q : Numeral) : Prop :=
  t.fractional = false → ∃ n, q = .int n ∧ (t.wide = false → IsShort n)

/-- No format and no kind declares 32 bits without a fraction. -/
theorem wide_or_fractional_of_declared {sh : Shape} (h : declaredNumberType? sh q = some t) :
    t.wide = true ∨ t.fractional = true := by
  unfold declaredNumberType? at h
  split at h
  · exact .inl (Option.some.inj h ▸ rfl)
  split at h
  · exact .inl (Option.some.inj h ▸ rfl)
  split at h
  · exact .inr (Option.some.inj h ▸ rfl)
  split at h
  · exact .inl (Option.some.inj h ▸ rfl)
  · cases h

/-- **The type of a number represents it**, whatever is declared. -/
theorem represents_numberType (shape : Option Shape) (q : Numeral) :
    Represents (numberType shape q) q := by
  intro hwhole
  cases q with
  | num x =>
    rw [fractional_numberType] at hwhole
    cases hwhole
  | int n =>
    refine ⟨n, rfl, fun hnarrow => ?_⟩
    have hundeclared : shape.bind (declaredNumberType? · (.int n)) = none := by
      cases hdeclared : shape.bind (declaredNumberType? · (.int n)) with
      | none => rfl
      | some t =>
        obtain ⟨sh, -, hsh⟩ := Option.bind_eq_some_iff.1 hdeclared
        have htype : numberType shape (.int n) = t := by
          rw [numberType, hdeclared, Option.getD_some]
        rcases wide_or_fractional_of_declared hsh with hwide | hfractional
        · rw [htype, hwide] at hnarrow
          cases hnarrow
        · rw [htype, hfractional] at hwhole
          cases hwhole
    -- nothing is declared, so the width is that of the integer itself
    rw [numberType, hundeclared] at hnarrow
    have hfits : (!fitsShort n) = false := hnarrow
    exact fitsShort_iff.1 (by simpa using hfits)

/-! ## Numbers of graphs -/

/-- **A number is read as itself**, unless its shape wants parts of it. -/
theorem value_of_numeral (hv : v.numeral? = some q) :
    (value ix shape near hint v).outcome =
      match leafFault shape hint v with
      | some cause => .error (.shape cause)
      | none => .ok (.number q (numberType shape q)) := by
  cases v with
  | int n =>
    obtain rfl := Option.some.inj hv
    rw [value]
    cases leafFault shape hint (.int n) <;> rfl
  | num x =>
    obtain rfl := Option.some.inj hv
    rw [value]
    cases leafFault shape hint (.num x) <;> rfl
  | null | bool _ | str _ | arr _ | obj _ => cases hv

/-- The node of a number at a site. -/
theorem node_of_numeral {g : BodyGraph} (hsent : sentJson? r = some body)
    (hbuild : (build r).outcome = .ok (some g)) (hs : Site.Reached r body s)
    (hv : s.value.numeral? = some q) :
    g.root.descendant? s.path = some (.number q (numberType s.shape q)) := by
  obtain ⟨m, hm, hnode⟩ := exists_node_of_build hsent hs hbuild
  have hobj : ∀ members, s.value ≠ .obj members := by
    intro members hvalue
    rw [hvalue] at hv
    cases hv
  rw [Site.node_of_ne_obj hobj, value_of_numeral hv] at hnode
  split at hnode
  · cases hnode
  · obtain rfl := Except.ok.inj hnode
    exact hm

/-- Every number of a graph has a type that represents it. -/
theorem represents_of_build {g : BodyGraph} (hbuild : (build r).outcome = .ok (some g))
    (hmem : .number q t ∈ g.root.walk) : Represents t q := by
  obtain ⟨shape, rfl⟩ := areTyped_build hbuild _ hmem
  exact represents_numberType shape q

end Body

/-! ## Digits -/

/-- The integer that decimal digits denote, a minus sign in front of them at
most. -/
def Number.denoted : List Char → Int
  | '-' :: digits => -(plainValue digits : Int)
  | digits => plainValue digits

/-- **The digits of an integer denote it**, however many they are. -/
theorem Number.denoted_toString (n : Int) : denoted (toString n).toList = n := by
  cases n with
  | ofNat n =>
    obtain ⟨d, ds, hds, hdigits⟩ := Json.Reader.exists_toDigits n
    have hsign : d ≠ '-' := by
      rintro rfl
      exact absurd (hdigits '-' List.mem_cons_self) (by decide)
    have hplain : denoted (d :: ds) = plainValue (d :: ds) := by
      unfold denoted
      split
      · next hcons => exact absurd (List.cons.inj hcons).1 hsign
      · rfl
    rw [Json.Reader.toList_ofNat, hds, hplain, ← hds, Json.Reader.plainValue_toDigits]
    rfl
  | negSucc n =>
    rw [Json.Reader.toList_negSucc, denoted, Json.Reader.plainValue_toDigits]
    exact (Int.negSucc_eq n).symm

/-! ## Literals -/

/-- **What is written for an integer** of a type: its digits, which denote it,
with the mark of 64 bits in the languages that have one. -/
structure WritesInteger (n : Int) (t : NumberType) : Prop where
  digits : Dialect.digits (.int n) t = .ok (toString n)
  denoted : Number.denoted (toString n).toList = n
  csharp : CSharp.language.dialect.literal (.number (.int n) t) =
    .ok (toString n ++ if t.wide then "L" else "")
  java : Java.language.dialect.literal (.number (.int n) t) =
    .ok (toString n ++ if t.wide then "L" else "")
  go : Go.language.dialect.literal (.number (.int n) t) =
    .ok ((if t.wide then "int64" else "int32") ++ "(" ++ toString n ++ ")")
  python : Python.language.dialect.literal (.number (.int n) t) = .ok (toString n)
  typescript : TypeScript.language.dialect.literal (.number (.int n) t) = .ok (toString n)
  php : Php.language.dialect.literal (.number (.int n) t) = .ok (toString n)

theorem writesInteger (n : Int) {t : NumberType} (h : t.fractional = false) :
    WritesInteger n t := by
  obtain ⟨wide, fractional⟩ := t
  obtain rfl : fractional = false := h
  cases wide with
  | true => exact ⟨rfl, Number.denoted_toString n, rfl, rfl, rfl, rfl, rfl, rfl⟩
  | false => exact ⟨rfl, Number.denoted_toString n, rfl, rfl, rfl, rfl, rfl, rfl⟩

/-- **Integers are exact.** For every shape a number of a body is read as
itself, at every site of every body, and its type represents it: a type without
a fraction is that of an integer, which fits in 32 bits if the type has no
more. What is written for a number of such a type has all digits of the integer,
and where 32 bits are too few C#, Java and Go say that it has 64. -/
theorem integers_are_exact :
    (∀ ix shape near hint v q, v.numeral? = some q →
      (Body.value ix shape near hint v).outcome =
        match Body.leafFault shape hint v with
        | some cause => .error (.shape cause)
        | none => .ok (.number q (Body.numberType shape q))) ∧
    (∀ shape q, Body.Represents (Body.numberType shape q) q) ∧
    (∀ r g, (Body.build r).outcome = .ok (some g) →
      (∀ body s q, Body.sentJson? r = some body → Body.Site.Reached r body s →
        s.value.numeral? = some q →
        g.root.descendant? s.path = some (.number q (Body.numberType s.shape q))) ∧
      ∀ q t, .number q t ∈ g.root.walk → Body.Represents t q) ∧
    ∀ q t, Body.Represents t q → t.fractional = false →
      ∃ n, q = .int n ∧ (¬ Body.IsShort n → t.wide = true) ∧ WritesInteger n t := by
  refine ⟨fun _ _ _ _ _ _ hv => Body.value_of_numeral hv, Body.represents_numberType, ?_, ?_⟩
  · intro r g hbuild
    constructor
    · intro body s q hsent hs hv
      exact Body.node_of_numeral hsent hbuild hs hv
    · intro q t hmem
      exact Body.represents_of_build hbuild hmem
  · intro q t hrepresents hwhole
    obtain ⟨n, rfl, hshort⟩ := hrepresents hwhole
    refine ⟨n, rfl, fun hlong => ?_, writesInteger n hwhole⟩
    by_contra hnarrow
    exact hlong (hshort (by simpa using hnarrow))

/-- A body with the least integer that 32 bits are too few for. -/
def longText : List Char :=
  "[\n  2147483648\n]".toList

/-- The graph of this body. -/
def longGraph : BodyGraph where
  root := .array (some (.number ⟨true, false⟩)) [.number (.int 2147483648) ⟨true, false⟩]

theorem read_long : Json.read (String.ofList longText) = .ok (.arr [.int 2147483648]) := by
  have hmono : ∀ k, 10 ≤ k → Number.tenTo 10 ≤ Number.tenTo k :=
    fun k hk => Nat.pow_le_pow_right (by decide) hk
  have hten : (2147483648 : Int).natAbs < Number.tenTo 10 := by decide
  have hshort : (2147483648 : Int).natAbs < Number.tenTo Number.maxDigits :=
    Nat.lt_of_lt_of_le hten (hmono Number.maxDigits (by decide))
  have hexact : Json.IsExact (.arr [.int 2147483648]) :=
    .arr fun v hv => List.mem_singleton.1 hv ▸ .int hshort
  exact Json.read_writeAt Json.readable_indented hexact 0 Json.Reader.isGap_nil

/-- A request with this body. -/
def longRequest : ResolvedRequest :=
  Body.inlineRequest (Utf8.encode longText)

theorem sentJson?_long : Body.sentJson? longRequest = some (.arr [.int 2147483648]) :=
  Body.sentJson?_of_read rfl rfl rfl read_long

theorem outcome_build_long : (Body.build longRequest).outcome = .ok (some longGraph) := by
  rw [Body.outcome_build sentJson?_long]
  rfl

/-- The integer is a node of 64 bits below the body, with a mark in Java. -/
theorem integers_are_exact_long :
    longGraph.root.descendant? [0] = some (.number (.int 2147483648) ⟨true, false⟩) ∧
      ¬ Body.IsShort 2147483648 ∧
      Java.language.dialect.literal (.number (.int 2147483648) ⟨true, false⟩) =
        .ok "2147483648L" := by
  obtain ⟨-, -, hgraph, hwritten⟩ := integers_are_exact
  obtain ⟨hnode, hrepresents⟩ := hgraph longRequest longGraph outcome_build_long
  have hreached : Body.Site.Reached longRequest (.arr [.int 2147483648])
      ⟨[0], none, none, "send", .int 2147483648⟩ :=
    .single (.element (i := 0) rfl rfl rfl)
  have hmem : .number (.int 2147483648) ⟨true, false⟩ ∈ longGraph.root.walk := by
    simp [longGraph, BodyNode.walk, BodyNode.walkAll]
  obtain ⟨n, hn, -, hwrites⟩ := hwritten _ _ (hrepresents _ _ hmem) rfl
  obtain rfl := Numeral.int.inj hn
  exact ⟨hnode _ _ _ sentJson?_long hreached rfl, by decide, hwrites.java.trans (by decide)⟩

end ApiSnippets
