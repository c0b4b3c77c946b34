import ApiSnippets.Proofs.Json
import ApiSnippets.Proofs.Outcome
import ApiSnippets.Proofs.Text.Cut
import ApiSnippets.Schema.Pointer
/-!
# Pointers to every value

A value of a document is at the end of some steps, each to a member of a mapping
or to an item of a list. The steps are spelled one after the other, a name with
`~0` for a tilde and `~1` for a slash, and the reference that they make up leads
to the value (`pointers_reach`). A name is read by replacing `~1` first: the
other way round `~01`, which spells the name `~1`, would be read as a slash.
-/

namespace ApiSnippets

/-! ## Positions -/

namespace Number

variable {c : Char} {cs : List Char}

theorem forall_isNumeral {P : Char → Prop} [DecidablePred P]
    (h : ∀ n < 58, isNumeral (Char.ofNat n) = true → P (Char.ofNat n)) (hc : isNumeral c = true) :
    P c := by
  have hle : c.toNat < 58 := by
    have hnine : c ≤ '9' := by
      simp only [isNumeral, Bool.and_eq_true, decide_eq_true_eq] at hc
      exact hc.2
    exact Nat.lt_succ_of_le hnine
  have hof := h c.toNat hle
  rw [Char.ofNat_toNat] at hof
  exact hof hc

/-- A digit is itself in ASCII, and no sign, no white space, no underscore. -/
theorem isNumeral_spec (hc : isNumeral c = true) :
    asciiDigit c = c ∧ isSurround c = false ∧ c ≠ '-' ∧ c ≠ '+' ∧ c ≠ '_' :=
  forall_isNumeral (P := fun c => asciiDigit c = c ∧ isSurround c = false ∧ c ≠ '-' ∧ c ≠ '+' ∧
    c ≠ '_') (by decide) hc

theorem bare_of_numerals (h : ∀ c ∈ cs, isNumeral c = true) : bare cs = cs := by
  have htrim : Text.trim isSurround cs = cs :=
    Text.trim_of_ends (fun c hc => (isNumeral_spec (h c (List.mem_of_mem_head? hc))).2.1)
      fun c hc => (isNumeral_spec (h c (List.mem_of_mem_getLast? hc))).2.1
  rw [bare, htrim]
  exact (List.map_congr_left fun c hc => (isNumeral_spec (h c hc)).1).trans (List.map_id _)

theorem splitSign_of_numerals (h : ∀ c ∈ cs, isNumeral c = true) : splitSign cs = (false, cs) := by
  cases cs with
  | nil => rfl
  | cons c cs =>
    obtain ⟨-, -, hminus, hplus, -⟩ := isNumeral_spec (h c List.mem_cons_self)
    unfold splitSign
    split <;> simp_all

theorem groupedWell_of_numerals (h : ∀ c ∈ cs, isNumeral c = true) (after : Bool) :
    groupedWell after cs = true := by
  induction cs generalizing after with
  | nil => rfl
  | cons c cs ih =>
    obtain ⟨hc, hcs⟩ := List.forall_mem_cons.1 h
    have hscore := (isNumeral_spec hc).2.2.2.2
    unfold groupedWell
    split <;> simp_all

/-- **Digits are read** as the number they are, as long as there are not too
many. -/
theorem lenientInteger?_of_numerals (h : ∀ c ∈ cs, isNumeral c = true) (hne : cs ≠ []) :
    lenientInteger? cs =
      if cs.length ≤ maxDigits then some ((plainValue cs : Nat) : Int) else none := by
  have hscores : cs.filter (· != '_') = cs :=
    List.filter_eq_self.2 fun c hc => bne_iff_ne.2 (isNumeral_spec (h c hc)).2.2.2.2
  have hempty : cs.isEmpty = false := by simpa using hne
  have hall : cs.all isNumeral = true := List.all_eq_true.2 h
  unfold lenientInteger?
  rw [bare_of_numerals h, splitSign_of_numerals h]
  simp only [hscores, hempty, hall, groupedWell_of_numerals h]
  by_cases hlength : cs.length ≤ maxDigits
  · simp [hlength, Nat.not_lt.2 hlength]
  · simp [hlength, Nat.lt_of_not_le hlength]

/-- A number is read from its digits if they are no more than are read. -/
theorem lenientInteger?_toDigits (i : Nat) :
    lenientInteger? (Nat.toDigits 10 i) =
      if i < tenTo maxDigits then some ((i : Nat) : Int) else none := by
  have hlength {n : Nat} (hn : 0 < n) : (Nat.toDigits 10 i).length ≤ n ↔ i < tenTo n :=
    Nat.length_toDigits_le_iff (by decide) hn
  rw [lenientInteger?_of_numerals (fun c hc => Json.Reader.isNumeral_of_mem_toDigits hc)
    Nat.toDigits_ne_nil, Json.Reader.plainValue_toDigits]
  exact if_congr (hlength (by decide)) rfl rfl

end Number

namespace Pointer

/-! ## Names with escapes -/

/-- A character of a name as it is spelled in a reference. -/
def escapeChar (c : Char) : List Char :=
  if c = '~' then ['~', '0'] else if c = '/' then ['~', '1'] else [c]

/-- A name as it is spelled in a reference. -/
def escape (cs : List Char) : List Char :=
  cs.flatMap escapeChar

theorem escape_cons (c : Char) (cs : List Char) : escape (c :: cs) = escapeChar c ++ escape cs :=
  rfl

theorem slash_not_mem_escape (cs : List Char) : '/' ∉ escape cs := by
  intro h
  obtain ⟨c, -, hc⟩ := List.mem_flatMap.1 h
  unfold escapeChar at hc
  split at hc
  · revert hc
    decide
  · split at hc
    · revert hc
      decide
    · next hslash => exact hslash (List.mem_singleton.1 hc).symm

/-- Slashes are read first, and tildes stay as they are spelled. -/
theorem replacePair_escape (cs : List Char) :
    Text.replacePair '~' '1' ['/'] (escape cs) = Text.replaceChar '~' ['~', '0'] cs := by
  induction cs with
  | nil => rfl
  | cons c cs ih =>
    rw [escape_cons, escapeChar]
    split
    · next htilde =>
      subst htilde
      rw [Text.replaceChar_cons_self, ← ih]
      have hzero : Text.replacePair '~' '1' ['/'] ('0' :: escape cs) =
          '0' :: Text.replacePair '~' '1' ['/'] (escape cs) :=
        Text.replacePair_cons_of_ne (by decide)
      show Text.replacePair '~' '1' ['/'] ('~' :: '0' :: escape cs) = _
      rw [Text.replacePair, if_neg (by decide), hzero]
      rfl
    · next htilde =>
      rw [Text.replaceChar_cons_of_ne htilde, ← ih]
      split
      · next hslash =>
        subst hslash
        show Text.replacePair '~' '1' ['/'] ('~' :: '1' :: escape cs) = _
        rw [Text.replacePair, if_pos ⟨rfl, rfl⟩]
        rfl
      · exact Text.replacePair_cons_of_ne htilde

theorem replacePair_tildes (cs : List Char) :
    Text.replacePair '~' '0' ['~'] (Text.replaceChar '~' ['~', '0'] cs) = cs := by
  induction cs with
  | nil => rfl
  | cons c cs ih =>
    by_cases hc : c = '~'
    · subst hc
      rw [Text.replaceChar_cons_self]
      simp [Text.replacePair, ih]
    · rw [Text.replaceChar_cons_of_ne hc, Text.replacePair_cons_of_ne hc, ih]

/-- **A name is read back** from its spelling. -/
theorem unescape_escape (cs : List Char) : unescape (escape cs) = cs := by
  rw [unescape, replacePair_escape, replacePair_tildes]

/-- What has no tilde has no escape. -/
theorem unescape_of_not_mem {cs : List Char} (h : '~' ∉ cs) : unescape cs = cs := by
  have hnone (new : List Char) (b : Char) : Text.replacePair '~' b new cs = cs :=
    Text.replacePair_of_not_infix fun hpair => h (hpair.mem List.mem_cons_self)
  rw [unescape, hnone, hnone]

/-! ## Steps -/

/-- A step from a value to a part of it. -/
inductive Step where
  /-- To the member of a mapping with a name. -/
  | member (name : String)
  /-- To the item of a list at a position. -/
  | item (position : Nat)
  deriving DecidableEq, Repr

/-- A step as it is spelled in a reference. -/
def Step.text : Step → String
  | member name => String.ofList (escape name.toList)
  | item position => toString position

/-- The reference that some steps from the root make up. -/
def pointerTo (steps : List Step) : String :=
  "#/" ++ String.intercalate "/" (steps.map Step.text)

/-- **Some steps lead from a value to another one.** -/
inductive Reaches : Doc → List Step → Doc → Prop
  | here (v : Doc) : Reaches v [] v
  | member {v w u : Doc} {name : String} {steps : List Step} (hw : v.get? name = some w)
      (h : Reaches w steps u) : Reaches v (.member name :: steps) u
  | item {v w u : Doc} {items : List Doc} {position : Nat} {steps : List Step}
      (hitems : v.opened = .list items) (hw : items[position]? = some w)
      (h : Reaches w steps u) : Reaches v (.item position :: steps) u

/-- A step whose position, if it has one, is short enough to be read. -/
def Step.IsReadable : Step → Prop
  | member _ => True
  | item position => position < Number.tenTo Number.maxDigits

variable {v w : Doc} {ref name : String}

theorem exists_of_get? (h : v.get? name = some w) :
    ∃ es, v.opened = .map es ∧ Doc.field? name es = some w := by
  unfold Doc.get? at h
  split at h
  · next es hes => exact ⟨es, hes, h⟩
  · cases h

theorem step_member (ref : String) (h : v.get? name = some w) :
    step ref v (escape name.toList) = .ok w := by
  obtain ⟨es, hes, hw⟩ := exists_of_get? h
  rw [step, unescape_escape, String.ofList_toList, hes]
  simp only [hw]

theorem toList_toString (position : Nat) :
    (toString position).toList = Nat.toDigits 10 position := by
  rw [Nat.toString_eq_ofList_toDigits, String.toList_ofList]

/-- An item is found, unless its position is too long to be read. -/
theorem step_item (ref : String) {items : List Doc} {position : Nat}
    (hitems : v.opened = .list items) (hw : items[position]? = some w) :
    step ref v (toString position).toList =
      if position < Number.tenTo Number.maxDigits then .ok w
      else .error (.index (.badPosition ref (toString position))) := by
  have hplain : unescape (toString position).toList = (toString position).toList := by
    refine unescape_of_not_mem fun hmem => ?_
    rw [toList_toString] at hmem
    exact absurd (Json.Reader.isNumeral_of_mem_toDigits hmem) (by decide)
  rw [step, hplain, String.ofList_toList, hitems]
  simp only [toList_toString, Number.lenientInteger?_toDigits]
  by_cases hread : position < Number.tenTo Number.maxDigits
  · have hitem : itemAt? items (position : Int) = some w := by
      rw [itemAt?, if_pos (Int.natCast_nonneg position), Int.toNat_natCast, hw]
    rw [if_pos hread, if_pos hread, Option.bind_some, hitem]
  · rw [if_neg hread, if_neg hread, Option.bind_none]

theorem slash_not_mem_text (s : Step) : '/' ∉ s.text.toList := by
  cases s with
  | member name =>
    rw [Step.text, String.toList_ofList]
    exact slash_not_mem_escape name.toList
  | item position =>
    rw [Step.text, toList_toString]
    exact fun hmem => absurd (Json.Reader.isNumeral_of_mem_toDigits hmem) (by decide)

/-! ## The steps of a reference -/

variable {root : Doc} {steps : List Step}

/-- The steps that are read from a reference are the ones it was made of. -/
theorem resolve_pointerTo (hne : steps ≠ []) :
    resolve (pointerTo steps) root =
      follow (pointerTo steps) root (steps.map fun s => s.text.toList) := by
  have htoList : (pointerTo steps).toList =
      '#' :: '/' :: List.intercalate ['/'] (steps.map fun s => s.text.toList) := by
    rw [pointerTo, String.toList_append, String.toList_intercalate, List.map_map]
    rfl
  have hsplit : Text.splitAll '/' (List.intercalate ['/'] (steps.map fun s => s.text.toList)) =
      steps.map fun s => s.text.toList := by
    refine Text.splitAll_joined (by simpa using hne) fun cs hcs => ?_
    obtain ⟨s, -, rfl⟩ := List.mem_map.1 hcs
    exact slash_not_mem_text s
  rw [resolve, htoList]
  simp only [hsplit]

/-- **The steps are followed** one after the other, up to the first position
that is too long to be read. -/
theorem follow_of_reaches (ref : String) (h : Reaches root steps v) :
    follow ref root (steps.map fun s => s.text.toList) = .ok v ↔ ∀ s ∈ steps, s.IsReadable := by
  induction h with
  | here v => simp [follow]
  | @member v w u name steps hw _ ih =>
    have hstep : step ref v (Step.member name).text.toList = .ok w := by
      rw [Step.text, String.toList_ofList, step_member ref hw]
    rw [List.map_cons, follow, hstep, List.forall_mem_cons]
    exact ih.trans (and_iff_right trivial).symm
  | @item v w u items position steps hitems hw _ ih =>
    rw [List.map_cons, follow, List.forall_mem_cons, Step.text, step_item ref hitems hw]
    by_cases hread : position < Number.tenTo Number.maxDigits
    · rw [if_pos hread]
      exact ih.trans (and_iff_right hread).symm
    · rw [if_neg hread]
      exact iff_of_false (fun hok => nomatch hok) fun hall => hread hall.1

/-! ## References to components -/

/-- The reference to the component with a name. -/
def componentRef (name : String) : String :=
  schemaStart ++ String.ofList (escape name.toList)

theorem componentRef_eq (name : String) :
    componentRef name = pointerTo [.member "components", .member "schemas", .member name] := by
  rw [← String.toList_inj]
  simp [componentRef, pointerTo, Step.text, schemaStart, escape, escapeChar]

theorem schemaId?_componentRef (name : String) : schemaId? (componentRef name) = some name := by
  have hstart : Text.hasStart schemaStart (componentRef name) = true := by
    simp [componentRef, Text.hasStart]
  have hdrop : (componentRef name).toList.drop schemaStart.toList.length = escape name.toList := by
    rw [componentRef, String.toList_append, List.drop_left, String.toList_ofList]
  rw [schemaId?, if_pos hstart, hdrop, unescape_escape, String.ofList_toList]

/-- **Every value is reached.** The reference made up of the steps to a value
leads to it, whatever the names along the way; the one thing in its way is a
position with more digits than are read, and there such a list would have to be
longer than any is. The name of a component is likewise read back from the
reference to it. -/
theorem pointers_reach :
    (∀ root steps v, Reaches root steps v → steps ≠ [] →
      (resolve (pointerTo steps) root = .ok v ↔ ∀ s ∈ steps, s.IsReadable)) ∧
    (∀ name, componentRef name =
      pointerTo [.member "components", .member "schemas", .member name]) ∧
    ∀ name, schemaId? (componentRef name) = some name := by
  refine ⟨fun root steps v h hne => ?_, componentRef_eq, schemaId?_componentRef⟩
  rw [resolve_pointerTo hne]
  exact follow_of_reaches _ h

/-- A document whose names look like escapes, positions and references, around a
list. -/
def crypticDocument : Doc :=
  .map [(.text "~1", .map [(.text "", .list [.null, .map [(.text "a/~b", .map [(.text "0",
    .map [(.text "$ref", .map [(.text "~01", .text "found")])])])]])])]

/-- The steps to the text in that document. -/
def crypticSteps : List Step :=
  [.member "~1", .member "", .item 1, .member "a/~b", .member "0", .member "$ref", .member "~01"]

theorem pointers_reach_cryptic : pointerTo crypticSteps = "#/~01//1/a~1~0b/0/$ref/~001" ∧
    resolve (pointerTo crypticSteps) crypticDocument = .ok (.text "found") := by
  have hreaches : Reaches crypticDocument crypticSteps (.text "found") :=
    .member rfl (.member rfl (.item rfl rfl (.member rfl (.member rfl (.member rfl
      (.member rfl (.here _)))))))
  have hread : ∀ s ∈ crypticSteps, s.IsReadable := by
    have hone {n : Nat} (hn : n ≠ 0) : 1 < Number.tenTo n := Nat.one_lt_pow hn (by decide)
    simp [crypticSteps, Step.IsReadable, hone (n := Number.maxDigits) (by decide)]
  exact ⟨by decide, (pointers_reach.1 _ _ _ hreaches (by decide)).2 hread⟩

end Pointer

end ApiSnippets
