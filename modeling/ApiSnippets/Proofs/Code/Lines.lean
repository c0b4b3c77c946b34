import Mathlib.Data.List.Infix
import ApiSnippets.Code.Language
import ApiSnippets.Proofs.Code.Origins
import ApiSnippets.Proofs.Code.Qualifiers
import ApiSnippets.Proofs.Code.Scope
import ApiSnippets.Proofs.Text.Cut
import ApiSnippets.Proofs.Text.Quoted
/-!
# Variables in the lines of statements

Which variables a line declares and which it uses, read off the line itself. A
variable is used where a method is called on it, and where it stands alone for a
value: as the last argument of a call, as an element or an entry on a line of its
own, and behind the sign that binds a value (`LineForm`). When the lines of every
statement say what the statement does (`LineForm.Writes`), statements in scope
are written as lines in scope (`LineForm.scoped_lines`).
-/

namespace ApiSnippets

open Locals (isNameChar IsName)

/-- A character that can stand in front of a value that is bound. -/
def LineForm.isFront (c : Char) : Bool :=
  !"=:('\"".toList.contains c

/-- How a variable is told from other texts. -/
structure Marking where
  /-- What stands in front of a variable that is used. -/
  sigil : List Char
  /-- What stands between a variable and a method of it. -/
  access : List Char
  quote : Char
  /-- A character that may stand between quotes. -/
  isInner : Char → Bool
  sigil_clear : ∀ c ∈ sigil, c ∉ ['\t', '&', quote] := by exact Text.forall_of_all (by decide)
  access_head : access.head?.any (fun c => !isNameChar c && c != '\t') = true := by decide
  quote_clear : isNameChar quote = false ∧ quote ≠ '&' := by decide

/-- Variables without a mark, whose methods stand behind a dot. -/
def Marking.bare : Marking where
  sigil := []
  access := ['.']
  quote := '"'
  isInner := Quoted.isVisible

/-- How variables stand in the lines of a language. -/
structure LineForm extends Marking where
  /-- The variables that a line declares. -/
  declaredIn : String → List String
  /-- What stands behind the arguments of a call. -/
  close : List Char
  /-- What stands in front of a value that is bound. -/
  becomes : List Char
  /-- What stands behind a value that is bound. -/
  stop : List Char
  /-- What stands between a quoted key and its value. -/
  keyed : List Char
  /-- Words that are written for values and are no variables. -/
  words : List String
  becomes_head : becomes.head?.any (fun c => !LineForm.isFront c) = true := by decide
  /-- No end of a value is read as the end of a key, or as the start of one. -/
  ends : ∀ ending ∈ [close, [',']], ¬ keyed <+: ending ∧ ending.head? ≠ some quote := by decide

namespace LineForm

variable {f : LineForm} {d : Dialect} {ns : List BodyNode}
variable {line name owner text : String} {c : Char} {cs front value ending : List Char}
variable {op : Operand} {st : Statement}

section Reader

variable (f : LineForm)

/-- What follows a quoted key and the sign behind it; without such a key all
there is. -/
def behindKey (cs : List Char) : List Char :=
  ((Quoted.token? f.quote f.isInner cs).bind fun key => key.2.dropPrefix? f.keyed).getD cs

/-- The variable a method is called on, and what follows the bracket. -/
def call? (cs : List Char) : Option (String × List Char) := do
  let cs ← cs.dropPrefix? f.sigil
  let method ← (cs.dropWhile isNameChar).dropPrefix? f.access
  let arguments ← (method.dropWhile isNameChar).dropPrefix? ['(']
  pure (String.ofList (cs.takeWhile isNameChar), arguments)

/-- The value that a line passes on: that of an indented element or entry, the
last argument of a call, or what is bound to a variable. -/
def operand? (line : String) : Option (List Char) :=
  if line.toList.head? = some '\t' then (f.behindKey line.toList.tail).dropSuffix? [',']
  else
    match f.call? line.toList with
    | some (_, arguments) => (f.behindKey arguments).dropSuffix? f.close
    | none =>
      ((line.toList.dropWhile isFront).dropPrefix? f.becomes).bind (·.dropSuffix? f.stop)

/-- Whether characters are a name; what begins with a digit is a number. -/
def isNamed (cs : List Char) : Bool :=
  !cs.isEmpty && !cs.head?.any Naming.isNumeral && cs.all isNameChar

/-- The variable that a value is. -/
def named? (cs : List Char) : Option String :=
  (((cs.dropPrefix? ['&']).getD cs).dropPrefix? f.sigil).bind fun name =>
    if isNamed name then some (String.ofList name) else none

/-- The variable that a line calls a method of. -/
def ownerIn (line : String) : List String :=
  ((f.call? line.toList).map Prod.fst).toList

/-- The variable, or the word, that a line passes on. -/
def valueIn (line : String) : List String :=
  ((f.operand? line).bind f.named?).toList

/-- **The variables that a line uses.** -/
def usedIn (line : String) : List String :=
  f.ownerIn line ++ f.valueIn line

/-- The variables that lines declare. -/
def declaredBy (lines : List String) : List String :=
  lines.flatMap f.declaredIn

end Reader

/-! ## Values -/

theorem named?_of_mem (hc : c ∈ cs) (hmark : isNameChar c = false)
    (hclear : c ∉ '&' :: f.sigil) : f.named? cs = none := by
  have hrest : c ∈ (cs.dropPrefix? ['&']).getD cs := by
    cases hdrop : cs.dropPrefix? ['&'] with
    | none => exact hc
    | some rest =>
      obtain ⟨start, rfl, hstart⟩ := List.dropPrefix?_eq_some_iff.1 hdrop
      obtain rfl := eq_of_beq hstart
      exact (List.mem_append.1 hc).resolve_left (by simp_all)
  unfold named?
  cases hdrop : ((cs.dropPrefix? ['&']).getD cs).dropPrefix? f.sigil with
  | none => rfl
  | some name =>
    obtain ⟨start, hcs, hstart⟩ := List.dropPrefix?_eq_some_iff.1 hdrop
    obtain rfl := eq_of_beq hstart
    have hname : c ∈ name := by
      rw [hcs] at hrest
      exact (List.mem_append.1 hrest).resolve_left (by simp_all)
    have hnot : isNamed name = false := by
      simp only [isNamed, Bool.and_eq_false_iff, List.all_eq_false]
      exact .inr ⟨c, hname, by simp [hmark]⟩
    simp [hnot]

theorem exists_intercalate_cons (sep s : String) (ss : List String) :
    ∃ rest, String.intercalate sep (s :: ss) = s ++ rest := by
  cases ss with
  | nil => exact ⟨"", by simp⟩
  | cons t ss => exact ⟨sep ++ String.intercalate sep (t :: ss), by
      rw [String.intercalate_cons_cons, String.append_assoc]⟩

theorem dropPrefix?_of_head {start : List Char} (hstart : start ≠ [])
    (h : cs.head? ≠ start.head?) : cs.dropPrefix? start = none := by
  cases start with
  | nil => exact absurd rfl hstart
  | cons a start =>
    cases cs with
    | nil => rfl
    | cons c cs =>
      have hne : (c == a) = false := by simpa using h
      simp [List.dropPrefix?, hne]

theorem dropPrefix?_append (start rest : List Char) :
    (start ++ rest).dropPrefix? start = some rest :=
  List.dropPrefix?_append_of_beq rest (beq_self_eq_true start)

theorem dropSuffix?_append (cs ending : List Char) : (cs ++ ending).dropSuffix? ending = some cs :=
  List.dropSuffix?_eq_some_iff.2 ⟨ending, rfl, beq_self_eq_true ending⟩

/-- The first character of a variable that is used. -/
theorem head_reference (h : IsName name) :
    ∃ c cs, f.sigil ++ name.toList = c :: cs ∧ c ∉ ['\t', '&', f.quote] := by
  cases hsigil : f.sigil with
  | cons c cs => exact ⟨c, cs ++ name.toList, rfl, f.sigil_clear c (by simp [hsigil])⟩
  | nil =>
    obtain ⟨c, cs, hcs⟩ := List.exists_cons_of_ne_nil h.ne_nil
    have hc : isNameChar c = true := h.chars c (by simp [hcs])
    refine ⟨c, cs, hcs, fun hmem => ?_⟩
    have hmarks : ∀ c ∈ ['\t', '&', f.quote], isNameChar c = false := by
      simp only [List.forall_mem_cons]
      exact ⟨by decide, by decide, f.quote_clear.1, by simp⟩
    exact absurd hc (by simp [hmarks c hmem])

theorem head_name (h : IsName name) (more : List Char) :
    (name.toList ++ more).head? ≠ some '\t' := by
  obtain ⟨c, cs, hcs⟩ := List.exists_cons_of_ne_nil h.ne_nil
  have hc : isNameChar c = true := h.chars c (by simp [hcs])
  rw [hcs, List.cons_append, List.head?_cons]
  rintro hhead
  obtain rfl := Option.some.inj hhead
  exact absurd hc (by decide)

theorem isFront_of_isNameChar (hc : isNameChar c = true) : isFront c = true := by
  have hmarks : ∀ a ∈ "=:('\"".toList, isNameChar a = false := Text.forall_of_all (by decide)
  cases hfront : isFront c with
  | true => rfl
  | false =>
    rw [isFront, Bool.not_eq_false', List.contains_iff_mem] at hfront
    exact absurd hc (by simp [hmarks c hfront])

/-- A variable is read where it is referred to, also by its address. -/
theorem named?_reference (h : IsName name) :
    f.named? (f.sigil ++ name.toList) = (if isNamed name.toList then some name else none) ∧
      f.named? ('&' :: (f.sigil ++ name.toList)) =
        if isNamed name.toList then some name else none := by
  have hdirect : (f.sigil ++ name.toList).dropPrefix? ['&'] = none := by
    obtain ⟨c, cs, hcs, hc⟩ := head_reference (f := f) h
    rw [hcs]
    exact dropPrefix?_of_head (by simp) (by simp_all)
  have haddress : ('&' :: (f.sigil ++ name.toList)).dropPrefix? ['&'] =
      some (f.sigil ++ name.toList) := dropPrefix?_append ['&'] _
  constructor
  · rw [named?, hdirect, Option.getD_none, dropPrefix?_append, Option.bind_some,
      String.ofList_toList]
  · rw [named?, haddress, Option.getD_some, dropPrefix?_append, Option.bind_some,
      String.ofList_toList]

/-- That a literal is a quoted text, or is read as one of the words if it is
read as a variable at all. -/
def IsLiteral (f : LineForm) (d : Dialect) (text : String) : Prop :=
  (∃ s, text = d.text s) ∨
    text.toList.head? ≠ some f.quote ∧ ∀ v ∈ f.named? text.toList, v ∈ f.words

/-- Code with a character that is no part of a name. -/
theorem isLiteral_of_mem (hhead : text.toList.head? ≠ some f.quote) (hc : c ∈ text.toList)
    (hmark : isNameChar c = false) (hclear : c ∉ '&' :: f.sigil) : f.IsLiteral d text := by
  refine .inr ⟨hhead, fun v hv => ?_⟩
  rw [named?_of_mem hc hmark hclear] at hv
  cases hv

/-- A call is no variable. -/
theorem isLiteral_call {code inside ending : String}
    (hhead : code.toList.head?.any (· != f.quote) = true) (hround : '(' ∈ code.toList)
    (hclear : '(' ∉ f.sigil) : f.IsLiteral d (code ++ inside ++ ending) := by
  obtain ⟨c, cs, hcode⟩ : ∃ c cs, code.toList = c :: cs :=
    List.exists_cons_of_ne_nil (List.ne_nil_of_mem hround)
  refine isLiteral_of_mem (c := '(') ?_ ?_ (by decide) (by simpa using hclear)
  · rw [String.toList_append, String.toList_append, hcode]
    simpa [hcode] using hhead
  · simp [hround]

/-- Numbers are no variables. -/
theorem isLiteral_of_beginsNumber (h : Qualifiers.BeginsNumber text)
    (hstart : ∀ c ∈ f.quote :: f.sigil, Qualifiers.isStart c = true) : f.IsLiteral d text := by
  obtain ⟨c, more, htext, hc⟩ := h
  have hne : ∀ a, Qualifiers.isStart a = true → c ≠ a := by
    rintro a ha rfl
    exact absurd ha (by simp [hc])
  have hquote : c ≠ f.quote := hne _ (hstart _ List.mem_cons_self)
  have haddress : (c :: more).dropPrefix? ['&'] = none :=
    dropPrefix?_of_head (by simp) (by simpa using hne '&' (by decide))
  have hnot : isNamed (c :: more) = false := by
    have hfirst : Naming.isNumeral c = true ∨ c = '+' ∨ c = '-' := by
      rw [Qualifiers.isStart, Bool.not_eq_false', Bool.or_eq_true, Bool.or_eq_true] at hc
      simpa [or_assoc] using hc
    rcases hfirst with hdigit | rfl | rfl
    · simp [isNamed, hdigit]
    · simp [isNamed, show isNameChar '+' = false by decide]
    · simp [isNamed, show isNameChar '-' = false by decide]
  refine .inr ⟨by simpa [htext] using hquote, fun v hv => ?_⟩
  rw [htext, named?, haddress, Option.getD_none] at hv
  cases hsigil : f.sigil with
  | nil => simp [hsigil, hnot] at hv
  | cons a sigil =>
    have hnone : (c :: more).dropPrefix? f.sigil = none :=
      dropPrefix?_of_head (by simp [hsigil])
        (by simpa [hsigil] using hne a (hstart a (by simp [hsigil])))
    simp [hnone] at hv

/-- What stands between double quotes. -/
theorem exists_inside (s : String) :
    ∃ inside, (Text.doubleQuoted s).toList = '"' :: inside ++ ['"'] ∧
      Quoted.Passes '"' Quoted.isVisible inside :=
  ⟨s.toList.flatMap Text.escapeDouble, String.toList_ofList,
    Quoted.passes_flatMap Quoted.passes_escapeDouble⟩

/-- That values are written in such a way that lines can be read. -/
structure Suits (f : LineForm) (d : Dialect) : Prop where
  reference : ∀ v, (d.reference v).toList = f.sigil ++ v.toList
  quoted : ∀ s, ∃ inside, (d.text s).toList = f.quote :: inside ++ [f.quote] ∧
    Quoted.Passes f.quote f.isInner inside
  literal : ∀ n text, d.literal n = .ok text → f.IsLiteral d text

namespace Suits

variable (hf : f.Suits d)
include hf

theorem named?_text (s : String) : f.named? (d.text s).toList = none := by
  obtain ⟨inside, htext, -⟩ := hf.quoted s
  have hquote : f.quote ∈ (d.text s).toList := by simp [htext]
  refine named?_of_mem hquote f.quote_clear.1 fun hmem => ?_
  rcases List.mem_cons.1 hmem with haddress | hsigil
  · exact f.quote_clear.2 haddress
  · exact f.sigil_clear _ hsigil (by simp)

theorem mem_words (hliteral : d.Writes ns text) {v : String}
    (hv : v ∈ f.named? text.toList) : v ∈ f.words := by
  obtain ⟨n, -, htext⟩ := hliteral
  rcases hf.literal n text htext with ⟨s, rfl⟩ | ⟨-, hwords⟩
  · rw [hf.named?_text] at hv
    cases hv
  · exact hwords v hv

/-- **What is read for an operand** is its variable, or a word for a value. -/
theorem named?_operand (hop : op.Stems d ns) (hname : ∀ v ∈ op.name?, IsName v) :
    (∀ v ∈ f.named? (op.write d).toList, v ∈ op.name? ∨ v ∈ f.words) ∧
      ∀ v ∈ op.name?, isNamed v.toList = true → v ∈ f.named? (op.write d).toList := by
  have hread : ∀ name : String, (∀ v ∈ if isNamed name.toList then some name else none,
      v ∈ some name ∨ v ∈ f.words) ∧ ∀ v ∈ some name, isNamed v.toList = true →
        v ∈ if isNamed name.toList then some name else none := by
    intro name
    split
    · exact ⟨fun v hv => .inl hv, fun v hv _ => hv⟩
    · next hnot =>
      refine ⟨nofun, fun v hv hnamed => ?_⟩
      obtain rfl := Option.some.inj hv
      exact absurd hnamed hnot
  cases op with
  | literal text => exact ⟨fun v hv => .inr (hf.mem_words hop hv), nofun⟩
  | named name =>
    have hvalue := (named?_reference (f := f) (hname name rfl)).1
    rw [Operand.write, hf.reference, hvalue]
    exact hread name
  | address name =>
    have hvalue := (named?_reference (f := f) (hname name rfl)).2
    have htext : "&".toList ++ (f.sigil ++ name.toList) = '&' :: (f.sigil ++ name.toList) := rfl
    rw [Operand.write, String.toList_append, hf.reference, htext, hvalue]
    exact hread name

/-! ## Keys -/

omit hf in
theorem behindKey_of_head (h : cs.head? ≠ some f.quote) : f.behindKey cs = cs := by
  cases cs with
  | nil => rfl
  | cons c cs =>
    have hc : c ≠ f.quote := by simpa using h
    simp [behindKey, Quoted.token?, hc]

theorem token?_text (s : String) (rest : List Char) :
    ∃ inside, Quoted.token? f.quote f.isInner ((d.text s).toList ++ rest) =
      some (inside, rest) := by
  obtain ⟨inside, htext, hpasses⟩ := hf.quoted s
  refine ⟨inside, ?_⟩
  rw [htext]
  simpa using hpasses.token? rest

/-- A key is passed over. -/
theorem behindKey_keyed (key : String) (rest : List Char) :
    f.behindKey ((d.text key).toList ++ (f.keyed ++ rest)) = rest := by
  obtain ⟨inside, htoken⟩ := hf.token?_text key (f.keyed ++ rest)
  rw [behindKey, htoken, Option.bind_some, dropPrefix?_append, Option.getD_some]

/-- No operand is taken for a key, not even a quoted text. -/
theorem behindKey_operand (hop : op.Stems d ns) (hname : ∀ v ∈ op.name?, IsName v)
    (hending : ending ∈ [f.close, [',']]) :
    f.behindKey ((op.write d).toList ++ ending) = (op.write d).toList ++ ending := by
  obtain ⟨hkeyed, hquote⟩ := f.ends ending hending
  have hreference : ∀ name, IsName name → ∀ rest,
      (f.sigil ++ name.toList ++ rest).head? ≠ some f.quote := by
    intro name hname rest
    obtain ⟨c, cs, hcs, hc⟩ := head_reference (f := f) hname
    rw [hcs]
    simp_all
  cases op with
  | literal text =>
    obtain ⟨n, -, htext⟩ := hop
    rcases hf.literal n text htext with ⟨s, rfl⟩ | ⟨hhead, -⟩
    · obtain ⟨inside, htoken⟩ := hf.token?_text s ending
      have hnone : ending.dropPrefix? f.keyed = none := by
        cases hdrop : ending.dropPrefix? f.keyed with
        | none => rfl
        | some rest =>
          obtain ⟨start, hstart, heq⟩ := List.dropPrefix?_eq_some_iff.1 hdrop
          obtain rfl := eq_of_beq heq
          exact absurd ⟨rest, hstart.symm⟩ hkeyed
      rw [Operand.write, behindKey, htoken, Option.bind_some, hnone, Option.getD_none]
    · refine behindKey_of_head ?_
      rw [Operand.write, List.head?_append]
      cases hcs : text.toList with
      | nil => simpa using hquote
      | cons c cs => simpa [hcs] using hhead
  | named name =>
    refine behindKey_of_head ?_
    rw [Operand.write, hf.reference]
    exact hreference name (hname name rfl) ending
  | address name =>
    refine behindKey_of_head ?_
    rw [Operand.write, String.toList_append]
    show some '&' ≠ some f.quote
    exact fun h => f.quote_clear.2 (Option.some.inj h).symm

end Suits

/-! ## Lines -/

/-- What a line declares, the variables it calls a method of, and the operands it
passes on. -/
structure Reads (f : LineForm) (line : String) (declared owners : List String)
    (ops : List Operand) : Prop where
  declares : f.declaredIn line = declared
  calls : f.ownerIn line = owners
  passes : ∀ v ∈ f.valueIn line, v ∈ ops.filterMap Operand.name? ∨ v ∈ f.words
  shows : ∀ v ∈ ops.filterMap Operand.name?, isNamed v.toList = true → v ∈ f.valueIn line

variable {method arguments : List Char} {owners : List String}

theorem exists_access :
    ∃ a access, f.access = a :: access ∧ isNameChar a = false ∧ a ≠ '\t' := by
  obtain ⟨a, access, haccess⟩ : ∃ a access, f.access = a :: access := by
    refine List.exists_cons_of_ne_nil fun hnil => ?_
    simpa [hnil] using f.access_head
  exact ⟨a, access, haccess, by simpa [haccess] using f.access_head⟩

theorem call?_eq_some (howner : IsName owner) (hmethod : ∀ c ∈ method, isNameChar c = true)
    (hline : cs = f.sigil ++ (owner.toList ++ (f.access ++ (method ++ '(' :: arguments)))) :
    f.call? cs = some (owner, arguments) := by
  obtain ⟨a, access, haccess, ha, -⟩ := exists_access (f := f)
  have hround : isNameChar '(' = false := by decide
  have hmethodCall : (method ++ '(' :: arguments).dropWhile isNameChar = '(' :: arguments :=
    Text.dropWhile_run hmethod hround
  have hrest : (owner.toList ++ (f.access ++ (method ++ '(' :: arguments))).dropWhile isNameChar =
      f.access ++ (method ++ '(' :: arguments) := by
    rw [haccess]
    exact Text.dropWhile_run howner.chars ha
  have hname : (owner.toList ++ (f.access ++ (method ++ '(' :: arguments))).takeWhile isNameChar =
      owner.toList := by
    rw [haccess]
    exact Text.takeWhile_run howner.chars ha
  have hbracket : ('(' :: arguments).dropPrefix? ['('] = some arguments :=
    dropPrefix?_append ['('] arguments
  simp only [call?, hline, dropPrefix?_append, Option.bind_eq_bind, Option.bind_some, hrest,
    hmethodCall, hbracket, hname, Option.pure_def, String.ofList_toList]

/-- A line that goes on behind its first name in another way calls nothing. -/
theorem call?_eq_none (value : List Char) (hline : cs = f.sigil ++ value)
    (h : (value.dropWhile isNameChar).head? ≠ f.access.head?) : f.call? cs = none := by
  obtain ⟨a, access, hcons, -, -⟩ := exists_access (f := f)
  have hnone : (value.dropWhile isNameChar).dropPrefix? f.access = none :=
    dropPrefix?_of_head (by simp [hcons]) h
  simp [call?, hline, dropPrefix?_append, hnone]

/-- Nothing is called on a line that is indented. -/
theorem call?_indented (cs : List Char) : f.call? ('\t' :: cs) = none := by
  cases hsigil : f.sigil with
  | nil =>
    obtain ⟨a, access, haccess, -, ha⟩ := exists_access (f := f)
    have hname : isNameChar '\t' = false := by decide
    refine call?_eq_none ('\t' :: cs) (by simp [hsigil]) ?_
    simpa [List.dropWhile_cons, hname, haccess] using ha.symm
  | cons a sigil =>
    have ha : a ≠ '\t' := fun h => f.sigil_clear a (by simp [hsigil]) (by simp [h])
    have hnone : ('\t' :: cs).dropPrefix? f.sigil = none :=
      dropPrefix?_of_head (by simp [hsigil]) (by simpa [hsigil] using ha.symm)
    simp [call?, hnone]

namespace Suits

variable (hf : f.Suits d)
include hf

/-- A line that passes an operand on. -/
theorem reads_operand (hop : op.Stems d ns) (hname : ∀ v ∈ op.name?, IsName v)
    (hdeclares : f.declaredIn line = []) (hcalls : f.ownerIn line = owners)
    (hoperand : f.operand? line = some (op.write d).toList) : f.Reads line [] owners [op] := by
  have hvalue : f.valueIn line = (f.named? (op.write d).toList).toList := by
    rw [valueIn, hoperand, Option.bind_some]
  have hnames : ∀ v, v ∈ [op].filterMap Operand.name? ↔ v ∈ op.name? := by
    intro v
    simp [List.mem_filterMap]
  obtain ⟨hread, hshown⟩ := hf.named?_operand hop hname
  refine ⟨hdeclares, hcalls, fun v hv => ?_, fun v hv hnamed => ?_⟩
  · rw [hvalue, Option.mem_toList] at hv
    exact (hread v hv).imp_left (hnames v).2
  · rw [hvalue, Option.mem_toList]
    exact hshown v ((hnames v).1 hv) hnamed

/-- The call of a method, whose last argument is an operand. -/
theorem reads_call (method : List Char) (hop : op.Stems d ns) (hname : ∀ v ∈ op.name?, IsName v)
    (howner : IsName owner) (hmethod : ∀ c ∈ method, isNameChar c = true)
    (hdeclares : f.declaredIn line = [])
    (harguments : f.behindKey arguments = (op.write d).toList ++ f.close)
    (hline : line.toList =
      f.sigil ++ (owner.toList ++ (f.access ++ (method ++ '(' :: arguments)))) :
    f.Reads line [] [owner] [op] := by
  have hcall : f.call? line.toList = some (owner, arguments) := call?_eq_some howner hmethod hline
  refine hf.reads_operand hop hname hdeclares (by simp [ownerIn, hcall]) ?_
  have hindent : line.toList.head? ≠ some '\t' := by
    obtain ⟨c, cs, hcs, hc⟩ := head_reference (f := f) howner
    rw [hline, ← List.append_assoc, hcs]
    simp_all
  rw [operand?, if_neg hindent]
  simp only [hcall, harguments, dropSuffix?_append]

/-- A line that is indented passes on what stands behind its key. -/
theorem reads_indented (hop : op.Stems d ns) (hname : ∀ v ∈ op.name?, IsName v)
    (hdeclares : f.declaredIn (Language.indented text) = [])
    (hvalue : f.behindKey text.toList = (op.write d).toList ++ [',']) :
    f.Reads (Language.indented text) [] [] [op] := by
  have hline : (Language.indented text).toList = '\t' :: text.toList := by
    rw [Language.indented, String.toList_append]
    rfl
  refine hf.reads_operand hop hname hdeclares ?_ ?_
  · rw [ownerIn, hline, call?_indented]
    rfl
  · rw [operand?, hline, List.head?_cons, if_pos rfl, List.tail_cons, hvalue, dropSuffix?_append]

/-- An element on a line of its own. -/
theorem reads_element (hop : op.Stems d ns) (hname : ∀ v ∈ op.name?, IsName v)
    (hindented : ∀ line, f.declaredIn (Language.indented line) = []) :
    f.Reads (Language.indented (op.write d ++ ",")) [] [] [op] := by
  refine hf.reads_indented hop hname (hindented _) ?_
  rw [String.toList_append]
  exact hf.behindKey_operand hop hname (by simp)

/-- An entry on a line of its own. -/
theorem reads_entry {key quoted sign : String} (hop : op.Stems d ns)
    (hname : ∀ v ∈ op.name?, IsName v) (hkey : quoted = d.text key) (hsign : sign.toList = f.keyed)
    (hindented : ∀ line, f.declaredIn (Language.indented line) = []) :
    f.Reads (Language.indented (quoted ++ sign ++ op.write d ++ ",")) [] [] [op] := by
  refine hf.reads_indented hop hname (hindented _) ?_
  have htext : (quoted ++ sign ++ op.write d ++ ",").toList =
      (d.text key).toList ++ (f.keyed ++ ((op.write d).toList ++ [','])) := by
    simp [hkey, hsign]
  rw [htext, hf.behindKey_keyed]

end Suits

/-! ## Declarations -/

/-- A line that binds a variable to a value, which may go on behind the line. -/
structure Binds (f : LineForm) (line name : String) (value : List Char) : Prop where
  declares : f.declaredIn line = [name]
  calls : f.call? line.toList = none
  indent : line.toList.head? ≠ some '\t'
  front : ∃ front, (∀ c ∈ front, isFront c = true) ∧ line.toList = front ++ (f.becomes ++ value)

theorem Binds.operand? (h : f.Binds line name value) :
    f.operand? line = value.dropSuffix? f.stop := by
  obtain ⟨front, hfront, hline⟩ := h.front
  obtain ⟨b, becomes, hbecomes⟩ : ∃ b becomes, f.becomes = b :: becomes := by
    refine List.exists_cons_of_ne_nil fun hnil => ?_
    simpa [hnil] using f.becomes_head
  have hb : isFront b = false := by simpa [hbecomes] using f.becomes_head
  have hvalue : line.toList.dropWhile isFront = f.becomes ++ value := by
    rw [hline, hbecomes]
    exact Text.dropWhile_run hfront hb
  rw [LineForm.operand?, if_neg h.indent, h.calls, hvalue]
  simp only [dropPrefix?_append, Option.bind_some]

/-- A declaration with a value that is more than a name. -/
theorem Binds.reads (h : f.Binds line name value) (hc : c ∈ value) (hmark : isNameChar c = false)
    (hclear : c ∉ '&' :: f.sigil ++ f.stop) : f.Reads line [name] [] [] := by
  have hvalue : f.valueIn line = [] := by
    rw [valueIn, h.operand?]
    cases hstop : value.dropSuffix? f.stop with
    | none => rfl
    | some cs =>
      obtain ⟨ending, rfl, hending⟩ := List.dropSuffix?_eq_some_iff.1 hstop
      obtain rfl := eq_of_beq hending
      have hmem : c ∈ cs := (List.mem_append.1 hc).resolve_right (by simp_all)
      rw [Option.bind_some, named?_of_mem hmem hmark (by simp_all)]
      rfl
  exact ⟨h.declares, by simp [ownerIn, h.calls], by simp [hvalue], by simp⟩

/-- A declaration whose value is a literal. -/
theorem Suits.reads_literal (hf : f.Suits d) (hliteral : d.Writes ns text)
    (h : f.Binds line name (text.toList ++ f.stop)) : f.Reads line [name] [] [] := by
  refine ⟨h.declares, by simp [ownerIn, h.calls], fun v hv => .inr ?_, by simp⟩
  rw [valueIn, h.operand?, dropSuffix?_append, Option.bind_some, Option.mem_toList] at hv
  exact hf.mem_words hliteral hv

/-! ## Statements -/

/-- That lines say what a statement does: they declare its variable and no
other, they pass on the variables that it refers to, and they call methods of
these or of the variable that they declared before. -/
structure Writes (f : LineForm) (st : Statement) (lines : List String) : Prop where
  declares : f.declaredBy lines = st.declared?.toList
  passes : ∀ line ∈ lines, ∀ v ∈ f.valueIn line, v ∈ st.used ∨ v ∈ f.words
  calls : ∀ before line after, lines = before ++ line :: after →
    ∀ v ∈ f.ownerIn line, v ∈ st.used ∨ v ∈ f.declaredBy before
  shows : ∀ v ∈ st.used, isNamed v.toList = true → ∃ line ∈ lines, v ∈ f.usedIn line

theorem writes_assign {member : String} (h : f.Reads line [] [owner] [op]) :
    f.Writes (.assign owner member op) [line] := by
  have hname : ∀ v, v ∈ [op].filterMap Operand.name? ↔ v ∈ op.name?.toList := by
    intro v
    simp [List.mem_filterMap]
  refine ⟨by simp [declaredBy, h.declares, Statement.declared?], fun l hl v hv => ?_,
    fun before l after hl v hv => ?_, fun v hv hnamed => ⟨line, List.mem_singleton_self _, ?_⟩⟩
  · obtain rfl := List.mem_singleton.1 hl
    exact (h.passes v hv).imp_left fun hmem => List.mem_cons_of_mem _ ((hname v).1 hmem)
  · obtain rfl : line = l := by
      have hmem : l ∈ [line] := hl ▸ List.mem_append_right _ List.mem_cons_self
      exact (List.mem_singleton.1 hmem).symm
    rw [h.calls] at hv
    obtain rfl := List.mem_singleton.1 hv
    exact .inl List.mem_cons_self
  · rcases List.mem_cons.1 hv with rfl | hv
    · exact List.mem_append_left _ (h.calls ▸ List.mem_singleton_self _)
    · exact List.mem_append_right _ (h.shows v ((hname v).2 hv) hnamed)

/-- A declaration: a first line with the variable, a line for each part, and
lines that close it. -/
theorem writes_declaration {α : Type} {first : String} (parts : List α) (write : α → String)
    (operand : α → Operand) (closing : List String) (hdeclared : st.declared? = some name)
    (hused : st.used = parts.filterMap fun x => (operand x).name?)
    (hfirst : f.Reads first [name] [] [])
    (hparts : ∀ x ∈ parts, f.Reads (write x) [] owners [operand x]) (howners : owners ⊆ [name])
    (hclosing : ∀ line ∈ closing, f.Reads line [] [] []) :
    f.Writes st (first :: parts.map write ++ closing) := by
  -- only the first line declares, and the others call methods of its variable alone
  have hrest : ∀ line ∈ parts.map write ++ closing,
      f.declaredIn line = [] ∧ f.ownerIn line ⊆ [name] := by
    intro line hline
    rcases List.mem_append.1 hline with hpart | hclose
    · obtain ⟨x, hx, rfl⟩ := List.mem_map.1 hpart
      exact ⟨(hparts x hx).declares, (hparts x hx).calls ▸ howners⟩
    · refine ⟨(hclosing line hclose).declares, ?_⟩
      rw [(hclosing line hclose).calls]
      exact List.nil_subset _
  have hnames : ∀ x v, v ∈ [operand x].filterMap Operand.name? ↔ (operand x).name? = some v := by
    intro x v
    simp [List.mem_filterMap]
  refine ⟨?_, fun line hline v hv => ?_, fun before line after hlines v hv => ?_,
    fun v hv hnamed => ?_⟩
  · have hnone : (parts.map write ++ closing).flatMap f.declaredIn = [] :=
      List.flatMap_eq_nil_iff.2 fun line hline => (hrest line hline).1
    rw [declaredBy, List.cons_append, List.flatMap_cons, hfirst.declares, hnone, hdeclared]
    rfl
  · rcases List.mem_cons.1 hline with rfl | hline
    · exact .inr ((hfirst.passes v hv).resolve_left (by simp))
    rcases List.mem_append.1 hline with hpart | hclose
    · obtain ⟨x, hx, rfl⟩ := List.mem_map.1 hpart
      refine ((hparts x hx).passes v hv).imp_left fun hmem => ?_
      rw [hused]
      exact List.mem_filterMap.2 ⟨x, hx, (hnames x v).1 hmem⟩
    · exact .inr (((hclosing line hclose).passes v hv).resolve_left (by simp))
  · -- whatever is called a method of is the variable of the first line, above
    right
    cases before with
    | nil =>
      obtain ⟨rfl, -⟩ := List.cons.inj hlines
      rw [hfirst.calls] at hv
      cases hv
    | cons l before =>
      rw [List.cons_append, List.cons_append] at hlines
      obtain ⟨rfl, hlater⟩ := List.cons.inj hlines
      have hmem : line ∈ parts.map write ++ closing :=
        hlater ▸ List.mem_append_right _ List.mem_cons_self
      obtain rfl := List.mem_singleton.1 ((hrest line hmem).2 hv)
      rw [declaredBy, List.flatMap_cons, hfirst.declares]
      exact List.mem_cons_self
  · rw [hused] at hv
    obtain ⟨x, hx, hv⟩ := List.mem_filterMap.1 hv
    have hmem : write x ∈ first :: parts.map write ++ closing :=
      List.mem_cons_of_mem _ (List.mem_append_left _ (List.mem_map_of_mem hx))
    exact ⟨write x, hmem, List.mem_append_right _
      ((hparts x hx).shows v ((hnames x v).2 hv) hnamed)⟩

/-- A declaration on one line. -/
theorem writes_line (hdeclared : st.declared? = some name) (hused : st.used = [])
    (h : f.Reads line [name] [] []) : f.Writes st [line] :=
  writes_declaration ([] : List Operand) (fun _ => "") id [] hdeclared hused h (by simp)
    (List.nil_subset _) (by simp)

/-! ## Bodies -/

/-- Lines in good order: all variables have different names, none of them a
reserved one, and a line uses only what is declared above it. -/
structure Scoped (f : LineForm) (reserved lines : List String) : Prop where
  distinct : (f.declaredBy lines).Nodup
  unreserved : ∀ v ∈ f.declaredBy lines, v ∉ reserved
  above : ∀ before line after, lines = before ++ line :: after →
    ∀ v ∈ f.usedIn line, v ∈ f.declaredBy before ∨ v ∈ f.words

variable {ss : List Statement} {write : Statement → List String} {root : BodyNode}

theorem declaredBy_flatMap (h : ∀ st ∈ ss, f.Writes st (write st)) :
    f.declaredBy (ss.flatMap write) = SetterStyle.declared ss := by
  calc
    f.declaredBy (ss.flatMap write) = ss.flatMap fun st => f.declaredBy (write st) :=
      List.flatMap_assoc
    _ = ss.flatMap fun st => st.declared?.toList :=
      List.flatMap_congr fun st hst => (h st hst).declares
    _ = SetterStyle.declared ss := by
      rw [SetterStyle.declared, List.filterMap_eq_flatMap_toList]

/-- A line belongs to one statement, and the lines above it are those of earlier
statements and earlier lines of its own. -/
theorem exists_statement {before after : List String}
    (h : ss.flatMap write = before ++ line :: after) :
    ∃ earlier st later front back, ss = earlier ++ st :: later ∧
      write st = front ++ line :: back ∧ before = earlier.flatMap write ++ front := by
  induction ss generalizing before with
  | nil => simp at h
  | cons st ss ih =>
    rw [List.flatMap_cons] at h
    rcases List.append_eq_append_iff.1 h with ⟨more, hbefore, hrest⟩ | ⟨more, hst, hrest⟩
    · obtain ⟨earlier, st', later, front, back, rfl, hwrite, rfl⟩ := ih hrest
      exact ⟨st :: earlier, st', later, front, back, rfl, hwrite, by simp [hbefore]⟩
    · cases more with
      | nil =>
        have hstart : ss.flatMap write = [] ++ line :: after := hrest.symm
        obtain ⟨earlier, st', later, front, back, rfl, hwrite, hnil⟩ := ih hstart
        refine ⟨st :: earlier, st', later, front, back, rfl, hwrite, ?_⟩
        rw [List.flatMap_cons, List.append_assoc, ← hnil, hst, List.append_nil, List.append_nil]
      | cons l more =>
        obtain ⟨rfl, -⟩ := List.cons.inj hrest
        exact ⟨[], st, ss, before, more, rfl, hst, rfl⟩

/-- **Statements in good order are written as lines in good order.** -/
theorem scoped_lines (h : ∀ st ∈ ss, f.Writes st (write st))
    (hscoped : SetterStyle.WellScoped d root ss op) :
    f.Scoped d.reservedLocals (ss.flatMap write) := by
  have hdeclared : f.declaredBy (ss.flatMap write) = SetterStyle.declared ss :=
    declaredBy_flatMap h
  refine ⟨hdeclared ▸ hscoped.distinct, hdeclared ▸ hscoped.unreserved,
    fun before line after hlines v hv => ?_⟩
  obtain ⟨earlier, st, later, front, back, rfl, hwrite, rfl⟩ := exists_statement hlines
  have hst : f.Writes st (write st) := h st (by simp)
  have hearlier : f.declaredBy (earlier.flatMap write) = SetterStyle.declared earlier :=
    declaredBy_flatMap fun st hmem => h st (List.mem_append_left _ hmem)
  have hused : v ∈ st.used → v ∈ f.declaredBy (earlier.flatMap write ++ front) := by
    intro hmem
    rw [declaredBy, List.flatMap_append, ← declaredBy, hearlier]
    exact List.mem_append_left _ (hscoped.above earlier st later rfl hmem)
  have hline : line ∈ write st := by
    rw [hwrite]
    exact List.mem_append_right _ List.mem_cons_self
  rcases List.mem_append.1 hv with howner | hvalue
  · left
    rcases hst.calls front line back hwrite v howner with hmem | hmem
    · exact hused hmem
    · rw [declaredBy, List.flatMap_append]
      exact List.mem_append_right _ hmem
  · exact (hst.passes line hline v hvalue).imp_left hused

/-- The variables of a body are names, and none of the reserved ones. -/
theorem isName_of_mem_declared {s : SetterStyle} {v : String}
    (hcase : d.variableCase = Naming.camel) (hsafe : d.safe = (· ++ "_"))
    (h : s.body d root = .ok (ss, op)) (hv : v ∈ SetterStyle.declared ss) : IsName v := by
  obtain ⟨taken, hint, rfl⟩ := SetterStyle.allocated_body h v hv
  exact Locals.isName_allocate hcase hsafe taken hint

/-- **The lines of a body say what its statements do**, if those of every
statement with such names do. -/
theorem writes_body {s : SetterStyle} (hcase : d.variableCase = Naming.camel)
    (hsafe : d.safe = (· ++ "_")) (hreserved : d.reservedLocals.Nodup)
    (h : s.body d root = .ok (ss, op))
    (hwrites : ∀ st : Statement,
      (∀ v, st.declared? = some v → IsName v ∧ v ∉ d.reservedLocals) →
      (∀ v ∈ st.used, IsName v ∧ v ∉ d.reservedLocals) → st.Stems d root.walk →
        f.Writes st (write st)) : ∀ st ∈ ss, f.Writes st (write st) := by
  have hscoped : SetterStyle.WellScoped d root ss op := SetterStyle.wellScoped_body hreserved h
  have hnames : ∀ v ∈ SetterStyle.declared ss, IsName v ∧ v ∉ d.reservedLocals := fun v hv =>
    ⟨isName_of_mem_declared hcase hsafe h hv, hscoped.unreserved v hv⟩
  intro st hst
  refine hwrites st (fun v hv => hnames v ?_) (fun v hv => hnames v ?_)
    ((SetterStyle.stems_body h).statements st hst)
  · exact List.mem_filterMap.2 ⟨st, hst, hv⟩
  · exact hscoped.mem_declared hst hv

end LineForm

end ApiSnippets
