import ApiSnippets.Proofs.Code.Layout
import ApiSnippets.Proofs.Naming
import ApiSnippets.Proofs.Number.Text
import ApiSnippets.Proofs.Outcome
import ApiSnippets.Target.CSharp
import ApiSnippets.Target.Python
import ApiSnippets.Target.TypeScript
/-!
# Bodies as nested expressions

A body that is written as one expression is well bracketed and indented by its
brackets. What a language contributes is bounded by what its pieces do: the
literals of its dialect are inline (`Dialect.IsInline`), and so are the texts
that its style puts around them, apart from those that open and close a group
(`InitializerStyle.IsBracketed`).
-/

namespace ApiSnippets

open Brackets Layout

variable {d : Dialect} {s : InitializerStyle}

/-! ## Names, numbers and lists -/

theorem isPlain_of_isWordChar {c : Char} (hc : Naming.isWordChar c = true) : isPlain c = true :=
  Naming.of_isWordChar (P := fun c => isPlain c = true) (by decide +kernel) hc

theorem inline_pascal (name : String) : Inline (Naming.pascal name) := by
  refine inline_of_isPlain fun c hc => isPlain_of_isWordChar ?_
  rw [Naming.pascal, String.toList_ofList] at hc
  exact Naming.isWordChar_of_mem_pascalChars hc

theorem inline_camel (name : String) : Inline (Naming.camel name) := by
  refine inline_of_isPlain fun c hc => isPlain_of_isWordChar ?_
  rw [Naming.camel, String.toList_ofList] at hc
  exact Naming.isWordChar_of_mem_camelChars hc

theorem inline_snake (name : String) : Inline (Naming.snake name) := by
  refine inline_of_isPlain fun c hc => ?_
  rw [Naming.snake, String.toList_ofList] at hc
  rcases Naming.isWordChar_of_mem_snakeChars hc with hc | rfl
  · exact isPlain_of_isWordChar hc
  · rfl

theorem inline_className (t : TypeRef) : Inline (Package.className t) :=
  inline_pascal _

theorem inline_of_isWritten {text : String} (h : Number.IsWritten text) : Inline text := by
  refine inline_of_isPlain fun c hc => ?_
  rcases Bool.or_eq_true_iff.1 (h c hc) with hc | hc
  · exact isPlain_of_isWordChar hc
  · have hsigns : ['+', '-', '.'].all isPlain = true := by decide
    exact List.all_eq_true.1 hsigns c (List.contains_iff_mem.1 hc)

theorem inline_intercalate {α : Type} {sep : String} {f : α → String} (hsep : Inline sep)
    (hf : ∀ a, Inline (f a)) (as : List α) : Inline (String.intercalate sep (as.map f)) := by
  induction as with
  | nil => exact inline_empty
  | cons a as ih =>
    cases as with
    | nil =>
      rw [List.map_singleton, String.intercalate_singleton]
      exact hf a
    | cons b as =>
      rw [List.map_cons, List.map_cons, String.intercalate_cons_cons]
      exact ((hf a).append hsep).append ih

theorem inline_brackets : Inline "[]" := by decide

/-! ## Literals -/

namespace Dialect

/-- A dialect whose literals are inline, whatever their values are. -/
structure IsInline (d : Dialect) : Prop where
  text : ∀ value, Inline (d.text value)
  truth : ∀ b, Inline (d.truth b)
  null : Inline d.null
  number : ∀ t digits, Inline digits → Inline (d.number t digits)
  guid : ∀ value, Inline (d.guid value)
  moment : ∀ t value, Inline (d.moment t value)
  binary : ∀ base64, Inline (d.binary base64)
  enum : ∀ t members flags, Inline (d.enum t members flags)

theorem isWritten_digits {v : Numeral} {t : NumberType} {text : String}
    (h : digits v t = .ok text) : Number.IsWritten text := by
  unfold digits at h
  split at h
  · split at h <;> cases h
    exact Number.isWritten_floatText _
  · cases h
    exact Number.isWritten_floatText _
  · cases h
    exact Number.isWritten_int _
  · split at h <;> cases h
    exact Number.isWritten_int _

theorem IsInline.literal (hd : d.IsInline) {n : BodyNode} {text : String}
    (h : d.literal n = .ok text) : Inline text := by
  cases n with
  | number v t =>
    obtain ⟨digits, hdigits, h⟩ := Outcome.bind_eq_ok.1 h
    cases Outcome.pure_eq_ok.1 h
    exact hd.number t digits (inline_of_isWritten (isWritten_digits hdigits))
  | string v => cases h; exact hd.text v
  | boolean b => cases h; exact hd.truth b
  | guid v => cases h; exact hd.guid v
  | datetime v t => cases h; exact hd.moment t v
  | binary v => cases h; exact hd.binary v
  | stream bs => cases h; exact hd.binary _
  | enum t members flags => cases h; exact hd.enum t members flags
  | null => cases h; exact hd.null
  | object _ _ _ | array _ _ | map _ => cases h

end Dialect

/-! ## Expressions -/

namespace InitializerStyle

/-- A style that opens and closes groups with matching brackets, at the end of
a line and at the beginning of one, and whose other texts are inline. -/
structure IsBracketed (s : InitializerStyle) : Prop where
  object : ∀ t derived, IsGroup (s.objectHead t) (s.objectEnd t derived)
  field : ∀ name, Inline (s.field name)
  list : ∀ item, IsGroup (s.listHead item) s.listEnd
  emptyList : ∀ item, Inline (s.emptyList item)
  map : IsGroup s.mapHead s.mapEnd
  entry : ∀ key, Inline (s.entry key)
  declaration : ∀ name n, Inline name → Inline (s.declaration name n)
  statementEnd : Inline s.statementEnd

mutual

/-- The expression for a node is well formed. -/
theorem wellFormed_express (hd : d.IsInline) (hs : s.IsBracketed) :
    ∀ (n : BodyNode) (e : Expression), express d s n = .ok e → WellFormed e
  | .object type members derived, e, h => by
    obtain ⟨ms, hms, h⟩ := Outcome.bind_eq_ok.1 h
    cases Outcome.pure_eq_ok.1 h
    obtain ⟨hnames, hmembers⟩ := wellFormed_expressMembers hd hs hs.field members ms hms
    exact .group (hs.object type derived) hnames hmembers
  | .array item [], e, h => by
    cases h
    exact .leaf (hs.emptyList item)
  | .array item (n :: ns), e, h => by
    obtain ⟨first, hfirst, h⟩ := Outcome.bind_eq_ok.1 h
    obtain ⟨rest, hrest, h⟩ := Outcome.bind_eq_ok.1 h
    cases Outcome.pure_eq_ok.1 h
    have hn := wellFormed_express hd hs n first hfirst
    obtain ⟨hnames, hns⟩ := wellFormed_expressAll hd hs ns rest hrest
    exact .group (hs.list item) (List.forall_mem_cons.2 ⟨inline_empty, hnames⟩)
      (List.forall_mem_cons.2 ⟨hn, hns⟩)
  | .map members, e, h => by
    obtain ⟨ms, hms, h⟩ := Outcome.bind_eq_ok.1 h
    cases Outcome.pure_eq_ok.1 h
    obtain ⟨hnames, hmembers⟩ := wellFormed_expressMembers hd hs hs.entry members ms hms
    exact .group hs.map hnames hmembers
  | .string _, e, h | .number _ _, e, h | .boolean _, e, h | .guid _, e, h | .datetime _ _, e, h
  | .binary _, e, h | .stream _, e, h | .enum _ _ _, e, h | .null, e, h => by
    obtain ⟨text, htext, h⟩ := Outcome.bind_eq_ok.1 h
    cases Outcome.pure_eq_ok.1 h
    exact .leaf (hd.literal htext)

/-- The expressions for elements are well formed. -/
theorem wellFormed_expressAll (hd : d.IsInline) (hs : s.IsBracketed) :
    ∀ (ns : List BodyNode) (es : List (String × Expression)), expressAll d s ns = .ok es →
      (∀ m ∈ es, Inline m.1) ∧ ∀ m ∈ es, WellFormed m.2
  | [], es, h => by
    cases h
    simp
  | n :: ns, es, h => by
    obtain ⟨e, he, h⟩ := Outcome.bind_eq_ok.1 h
    obtain ⟨rest, hrest, h⟩ := Outcome.bind_eq_ok.1 h
    cases Outcome.pure_eq_ok.1 h
    have hn := wellFormed_express hd hs n e he
    obtain ⟨hnames, hns⟩ := wellFormed_expressAll hd hs ns rest hrest
    exact ⟨List.forall_mem_cons.2 ⟨inline_empty, hnames⟩, List.forall_mem_cons.2 ⟨hn, hns⟩⟩

/-- The expressions for members are well formed. -/
theorem wellFormed_expressMembers (hd : d.IsInline) (hs : s.IsBracketed) {start : String → String}
    (hstart : ∀ name, Inline (start name)) :
    ∀ (ms : List (String × BodyNode)) (es : List (String × Expression)),
      expressMembers d s start ms = .ok es → (∀ m ∈ es, Inline m.1) ∧ ∀ m ∈ es, WellFormed m.2
  | [], es, h => by
    cases h
    simp
  | (name, n) :: ms, es, h => by
    obtain ⟨e, he, h⟩ := Outcome.bind_eq_ok.1 h
    obtain ⟨rest, hrest, h⟩ := Outcome.bind_eq_ok.1 h
    cases Outcome.pure_eq_ok.1 h
    have hn := wellFormed_express hd hs n e he
    obtain ⟨hnames, hms⟩ := wellFormed_expressMembers hd hs hstart ms rest hrest
    exact ⟨List.forall_mem_cons.2 ⟨hstart name, hnames⟩, List.forall_mem_cons.2 ⟨hn, hms⟩⟩

end

/-- **A declaration is laid out by its brackets** when the pieces of the
language are in order. -/
theorem laid_declare (hd : d.IsInline) (hs : s.IsBracketed) {name : String} {n : BodyNode}
    {ls : List Line} (hname : Inline name) (h : s.declare d name n = .ok ls) : Laid [] ls [] := by
  obtain ⟨e, he, h⟩ := Outcome.bind_eq_ok.1 h
  cases Outcome.pure_eq_ok.1 h
  exact (wellFormed_express hd hs n e he).laid [] _ _ (hs.declaration name n hname) hs.statementEnd

end InitializerStyle

/-! ## The languages -/

namespace CSharp

theorem inline_enumMember (t : TypeRef) (member : String) : Inline (enumMember t member) :=
  ((inline_className t).append (by decide)).append (inline_pascal member)

theorem inline_itemType (item : Option ItemType) : Inline (itemType item) := by
  unfold itemType
  split
  · decide
  · exact (inline_className _).append (by decide)
  · exact inline_className _
  · split <;> decide
  all_goals decide

/-- The literals of C# are inline. -/
theorem isInline : dialect.IsInline where
  text := inline_doubleQuoted
  truth := by decide
  null := by decide
  number t digits h := by
    refine h.append ?_
    unfold numberSuffix
    split <;> decide
  guid value := (inline_doubleQuoted value).between [')'] (by decide) (by decide)
  moment t value := by
    have hvalue := inline_doubleQuoted value
    cases t with
    | date | time => exact hvalue.between [')', ')'] (by decide) (by decide)
    | duration | dateTime | other => exact hvalue.between [')'] (by decide) (by decide)
  binary base64 := (inline_doubleQuoted base64).between [')'] (by decide) (by decide)
  enum t members _ := inline_intercalate (by decide) (inline_enumMember t) members

/-- Object initializers are bracketed. -/
theorem isBracketed : style.IsBracketed where
  object t _ := by
    have hhead : Inline ("new " ++ Package.className t) := .append (by decide) (inline_className t)
    exact isGroup_of_inline hhead (by decide) closes_curly
  field name := (inline_pascal name).append (by decide)
  list item := by
    have hhead := (inline_itemType item).between (a := "new List<") (b := ">") [] (by decide)
      (by decide)
    exact isGroup_of_inline hhead (by decide) closes_curly
  emptyList item := (inline_itemType item).between [] (by decide) (by decide)
  map := isGroup_of_inline (by decide) (by decide) closes_curly
  entry key := (inline_doubleQuoted key).between [']'] (by decide) (by decide)
  declaration name _ hname := hname.between [] (by decide) (by decide)
  statementEnd := by decide

end CSharp

namespace Python

theorem inline_property (name : String) : Inline (property name) := by
  unfold property
  dsimp only
  split
  · exact (inline_snake name).append (by decide)
  · exact inline_snake name

/-- The literals of Python are inline. -/
theorem isInline : dialect.IsInline where
  text := inline_doubleQuoted
  truth := by decide
  null := by decide
  number _ _ h := h
  guid value := (inline_doubleQuoted value).between [')'] (by decide) (by decide)
  moment t value := by
    have hvalue := inline_doubleQuoted value
    cases t with
    | dateTime | date | time => exact hvalue.between [')'] (by decide) (by decide)
    | duration | other => exact hvalue
  binary base64 := (inline_doubleQuoted base64).between [')'] (by decide) (by decide)
  enum t members _ := by
    refine inline_intercalate (by decide) (fun member => ?_) members
    exact ((inline_className t).append (by decide)).append (inline_pascal member)

/-- Constructor calls are bracketed. -/
theorem isBracketed : style.IsBracketed where
  object t _ := isGroup_of_piece ((inline_className t).append (by decide)) closes_round
  field name := (inline_property name).append (by decide)
  list _ := isGroup_of_piece (by decide) closes_square
  emptyList _ := inline_brackets
  map := isGroup_of_piece (by decide) closes_curly
  entry key := (inline_doubleQuoted key).append (by decide)
  declaration name _ hname := hname.append (by decide)
  statementEnd := inline_empty

end Python

namespace TypeScript

/-- The literals of TypeScript are inline. -/
theorem isInline : dialect.IsInline where
  text := inline_doubleQuoted
  truth := by decide
  null := by decide
  number _ _ h := h
  guid := inline_doubleQuoted
  moment t value := by
    have hvalue := inline_doubleQuoted value
    cases t with
    | dateTime => exact hvalue.between [')'] (by decide) (by decide)
    | date | time | duration | other => exact hvalue
  binary := inline_doubleQuoted
  enum t members flags := by
    cases flags with
    | false => exact inline_doubleQuoted _
    | true =>
      have hmembers : Inline (String.intercalate ", " (members.map Text.doubleQuoted)) :=
        inline_intercalate (by decide) inline_doubleQuoted members
      exact hmembers.between [']'] (by decide) (by decide)

theorem inline_declaration {name : String} (hname : Inline name) (n : BodyNode) :
    Inline (declaration name n) := by
  have hconst : Inline ("const " ++ name) := .append (by decide) hname
  unfold declaration
  split
  · next t _ => exact ((hconst.append (by decide)).append (inline_className t)).append (by decide)
  · exact hconst.append (by decide)

/-- Object literals are bracketed. -/
theorem isBracketed : style.IsBracketed where
  object t derived := by
    have hopen : Piece [] "\x7b" ['\x7d'] := by decide
    cases derived with
    | false => exact isGroup_of_piece hopen closes_curly
    | true =>
      have hassertion : Closes '\x7d' "\x7d as " := ⟨rfl, " as ", by decide, by decide⟩
      exact isGroup_of_piece hopen (hassertion.append (inline_className t))
  field name := (inline_camel name).append (by decide)
  list _ := isGroup_of_piece (by decide) closes_square
  emptyList _ := inline_brackets
  map := isGroup_of_piece (by decide) closes_curly
  entry key := (inline_doubleQuoted key).append (by decide)
  declaration name n hname := inline_declaration hname n
  statementEnd := by decide

end TypeScript

namespace Language

/-- **Bodies as nested expressions are well laid out** in C#, Python and
TypeScript. Whatever the texts, members, enumerations and types of a body are,
the brackets outside of quoted texts are balanced in what is written for it,
and every line has one tab for each bracket that is open where it begins, not
counting one that its first character closes. A body that is no JSON value is
written in another way. -/
theorem bodyCode_wellLaidOut {l : Language}
    (hl : l ∈ [CSharp.language, Python.language, TypeScript.language]) {g : BodyGraph}
    (hg : ∀ octets, g.root ≠ .stream octets) {r : ResolvedRequest} {lines : List String}
    {argument : Option String} (h : l.bodyCode g r = .ok (lines, argument)) :
    WellLaidOut lines := by
  have hstyle : ∃ s, l.body = .initializer s ∧ l.dialect.IsInline ∧ s.IsBracketed ∧
      Inline (Locals.allocate l.dialect l.dialect.reservedLocals bodyHint).1 := by
    simp only [List.mem_cons, List.not_mem_nil, or_false] at hl
    rcases hl with rfl | rfl | rfl
    · exact ⟨_, rfl, CSharp.isInline, CSharp.isBracketed, by decide⟩
    · exact ⟨_, rfl, Python.isInline, Python.isBracketed, by decide⟩
    · exact ⟨_, rfl, TypeScript.isInline, TypeScript.isBracketed, by decide⟩
  obtain ⟨s, hs, hinline, hbracketed, hname⟩ := hstyle
  rw [bodyCode, hs] at h
  dsimp only at h
  split at h
  · next octets hroot => exact absurd hroot (hg octets)
  · obtain ⟨ls, hls, h⟩ := Outcome.bind_eq_ok.1 h
    cases Outcome.pure_eq_ok.1 h
    exact (InitializerStyle.laid_declare hinline hbracketed hname hls).wellLaidOut

/-- A body with brackets, quotes and breaks in its texts and names. -/
def bracketedBody : BodyGraph where
  root := .object (TypeRef.ofName "ns.thing[")
    [("a(b", .string "]\"\x7d\n\t"),
     ("list", .array none
       [.enum (TypeRef.ofName "ns.kind") ["(", "\\"] true, .map [("\x7b", .null)], .array none []]),
     ("inner\n", .object (TypeRef.ofName "ns.)part") [] true)] false

/-- A request for that body. -/
def bracketedRequest : ResolvedRequest where
  method := .patch
  version := "v1.0"
  path := "/things"
  template := "/things"
  segments := [PathSegment.literal "things"]
  operation := { method := .patch }
  query := []
  headers := []
  contentType := none
  body := none
  index := default

/-- What is written for that body in TypeScript. -/
def bracketedLines : List String :=
  ["const requestBody : Thing = \x7b", "\taB : \"]\\\"\x7d\\n\\t\",", "\tlist : [",
    "\t\t[\"(\", \"\\\\\"],", "\t\t\x7b", "\t\t\t\"\x7b\" : null,", "\t\t\x7d,", "\t\t[],", "\t],",
    "\tinner : \x7b", "\t\x7d as Part,", "\x7d;"]

theorem bodyCode_wellLaidOut_bracketed :
    TypeScript.language.bodyCode bracketedBody bracketedRequest =
        .ok (bracketedLines, some "requestBody") ∧
      WellLaidOut bracketedLines := by
  have hroot : ∀ octets, bracketedBody.root ≠ .stream octets := by
    rintro octets ⟨⟩
  have hcode : TypeScript.language.bodyCode bracketedBody bracketedRequest =
      .ok (bracketedLines, some "requestBody") := rfl
  exact ⟨hcode, bodyCode_wellLaidOut (by simp) hroot hcode⟩

end Language

end ApiSnippets
