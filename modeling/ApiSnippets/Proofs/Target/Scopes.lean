import ApiSnippets.Proofs.Target.Go
/-!
# Bodies as statements are well scoped

In Java, Go and PHP a body is written as statements in good order, and the lines
of each statement declare and use what the statement does. So the order can be
read off the lines of a snippet, too (`Language.bodyCode_wellScoped`).
-/

namespace ApiSnippets

open Locals (isNameChar IsName isNameChar_pascal)

variable {name type text line : String} {n : BodyNode} {value : List Char}
variable {st : Statement} {ns : List BodyNode}

namespace Java

/-! ## Java -/

/-- The variable that a line declares: the last word in front of an equals
sign. -/
def declaredIn (line : String) : List String :=
  if (line.toList.dropWhile LineForm.isFront).head? = some '=' then
    ((Text.fields (· == ' ') (line.toList.takeWhile LineForm.isFront)).getLast?.map
      String.ofList).toList
  else []

/-- How variables stand in lines. Infinity and what is no number are written as
words. -/
def form : LineForm where
  toMarking := .bare
  declaredIn := declaredIn
  close := [')', ';']
  becomes := ['=', ' ']
  stop := [';']
  keyed := [',', ' ']
  words := ["null", "true", "false", "infd", "inff", "nand", "nanf"]

/-- A character in the type of a variable. -/
def isTypeChar (c : Char) : Bool :=
  isNameChar c || "<>[], ".toList.contains c

theorem isTypeChar_pascal (name : String) :
    ∀ c ∈ (Naming.pascal name).toList, isTypeChar c = true := by
  intro c hc
  simp [isTypeChar, isNameChar_pascal name c hc]

theorem isTypeChar_itemType (item : Option ItemType) :
    ∀ c ∈ (itemType item).toList, isTypeChar c = true := by
  rcases item with _ | _ | t | _ | _ | _ | _ | t | t | _
  case some.number =>
    obtain ⟨wide, fractional⟩ := t
    cases wide <;> cases fractional <;> exact List.all_eq_true.1 (by decide)
  case some.enum => exact isTypeChar_pascal t.shortName
  case some.object => exact isTypeChar_pascal t.shortName
  all_goals exact List.all_eq_true.1 (by decide)

theorem isFront_of_isTypeChar {c : Char} (h : isTypeChar c = true) :
    LineForm.isFront c = true ∧ c ≠ '.' ∧ c ≠ '\t' := by
  rw [isTypeChar, Bool.or_eq_true, List.contains_iff_mem] at h
  rcases h with hname | hmark
  · refine ⟨LineForm.isFront_of_isNameChar hname, ?_, ?_⟩
    · rintro rfl
      exact absurd hname (by decide)
    · rintro rfl
      exact absurd hname (by decide)
  · have hmarks : ∀ c ∈ "<>[], ".toList, LineForm.isFront c = true ∧ c ≠ '.' ∧ c ≠ '\t' :=
      Text.forall_of_all (by decide)
    exact hmarks c hmark

/-- What stands in front of an equals sign. -/
theorem isFront_declaration (htype : ∀ c ∈ type.toList, isTypeChar c = true) (hname : IsName name) :
    ∀ c ∈ type.toList ++ ' ' :: (name.toList ++ [' ']), LineForm.isFront c = true := by
  have hspace : LineForm.isFront ' ' = true := by decide
  refine List.forall_mem_append.2 ⟨fun c hc => (isFront_of_isTypeChar (htype c hc)).1, ?_⟩
  refine List.forall_mem_cons.2 ⟨hspace, List.forall_mem_append.2 ⟨fun c hc => ?_, ?_⟩⟩
  · exact LineForm.isFront_of_isNameChar (hname.chars c hc)
  · exact List.forall_mem_singleton.2 hspace

theorem declaredIn_declaration (htype : ∀ c ∈ type.toList, isTypeChar c = true)
    (hname : IsName name)
    (hline : line.toList = (type.toList ++ ' ' :: (name.toList ++ [' '])) ++ '=' :: value) :
    declaredIn line = [name] := by
  have hfront := isFront_declaration htype hname
  have hequals : LineForm.isFront '=' = false := by decide
  have hspace : ∀ c ∈ name.toList, (c == ' ') = false := by
    intro c hc
    have hne : c ≠ ' ' := by
      rintro rfl
      exact absurd (hname.chars _ hc) (by decide)
    simpa using hne
  have hfields : Text.fields (· == ' ') (type.toList ++ ' ' :: (name.toList ++ [' '])) =
      Text.fields (· == ' ') type.toList ++ [name.toList] := by
    rw [Text.fields_append (by decide), Text.fields_run hspace hname.ne_nil (by decide)]
    rfl
  rw [declaredIn, hline, Text.dropWhile_run hfront hequals, Text.takeWhile_run hfront hequals,
    hfields, List.getLast?_concat]
  simp

/-- A line that declares a variable of a type. -/
theorem binds (type : String) (htype : ∀ c ∈ type.toList, isTypeChar c = true) (hname : IsName name)
    (hline : line.toList = type.toList ++ ' ' :: (name.toList ++ ' ' :: '=' :: ' ' :: value)) :
    form.Binds line name value where
  declares := by
    have hequals : line.toList =
        (type.toList ++ ' ' :: (name.toList ++ [' '])) ++ '=' :: (' ' :: value) := by simp [hline]
    exact declaredIn_declaration htype hname hequals
  calls := by
    refine LineForm.call?_eq_none
      (type.toList ++ ' ' :: (name.toList ++ ' ' :: '=' :: ' ' :: value)) hline ?_
    rw [Text.dropWhile_append_stop (by decide)]
    -- the first name of a type ends within the type, or at the space behind it
    cases hrest : type.toList.dropWhile isNameChar with
    | nil =>
      show some ' ' ≠ some '.'
      decide
    | cons c rest =>
      have hc : c ∈ type.toList :=
        (List.dropWhile_sublist _).mem (hrest ▸ List.mem_cons_self)
      have hpoint : c ≠ '.' := (isFront_of_isTypeChar (htype c hc)).2.1
      exact fun h => hpoint (Option.some.inj h)
  indent := by
    rw [hline]
    cases htext : type.toList with
    | nil =>
      show some ' ' ≠ some '\t'
      decide
    | cons c cs =>
      have hc : c ≠ '\t' := (isFront_of_isTypeChar (htype c (htext ▸ List.mem_cons_self))).2.2
      exact fun h => hc (Option.some.inj h)
  front := ⟨_, isFront_declaration htype hname, by simp [hline, form]⟩

/-- Nothing is declared where a method is called. -/
theorem declaredIn_call {method : List Char} (hname : IsName name)
    (hmethod : ∀ c ∈ method, isNameChar c = true)
    (hline : line.toList = name.toList ++ '.' :: (method ++ '(' :: value)) :
    form.declaredIn line = [] := by
  have hfront : ∀ c ∈ name.toList ++ '.' :: method, LineForm.isFront c = true := by
    refine List.forall_mem_append.2 ⟨fun c hc => ?_, List.forall_mem_cons.2 ⟨by decide, ?_⟩⟩
    · exact LineForm.isFront_of_isNameChar (hname.chars c hc)
    · exact fun c hc => LineForm.isFront_of_isNameChar (hmethod c hc)
  have htext : line.toList = (name.toList ++ '.' :: method) ++ '(' :: value := by simp [hline]
  show declaredIn line = []
  rw [declaredIn, htext, Text.dropWhile_run hfront (by decide)]
  rfl

theorem exists_enumValue (t : TypeRef) (member : String) (members : List String) :
    ∃ rest, (String.intercalate ", " ((member :: members).map fun m =>
      Package.className t ++ "." ++ Naming.pascal m)).toList =
        (Package.className t).toList ++ '.' :: rest := by
  obtain ⟨rest, hrest⟩ := LineForm.exists_intercalate_cons ", "
    (Package.className t ++ "." ++ Naming.pascal member)
    (members.map fun m => Package.className t ++ "." ++ Naming.pascal m)
  refine ⟨(Naming.pascal member).toList ++ rest.toList, ?_⟩
  rw [List.map_cons, hrest]
  simp

/-- The members of an enumeration are no variable. -/
theorem isLiteral_enumValue (t : TypeRef) (members : List String) (flags : Bool) :
    form.IsLiteral dialect (enumValue t members flags) := by
  unfold enumValue
  generalize hnames : String.intercalate ", " (members.map fun m =>
    Package.className t ++ "." ++ Naming.pascal m) = names
  dsimp only
  split
  · exact LineForm.isLiteral_call (by decide) (by decide) (by decide)
  · cases members with
    | nil =>
      obtain rfl : "" = names := hnames
      exact .inr (by decide)
    | cons member members =>
      obtain ⟨rest, hrest⟩ := exists_enumValue t member members
      rw [hnames] at hrest
      refine LineForm.isLiteral_of_mem (c := '.') ?_ (by simp [hrest]) (by decide) (by decide)
      rw [hrest]
      cases hclass : (Package.className t).toList with
      | nil =>
        show some '.' ≠ some '"'
        decide
      | cons c cs =>
        have hc : isNameChar c = true :=
          isNameChar_pascal t.shortName c (hclass ▸ List.mem_cons_self)
        intro hquote
        obtain rfl : c = '"' := Option.some.inj hquote
        exact absurd hc (by decide)

theorem isLiteral_moment (t : Temporal) (v : String) : form.IsLiteral dialect (moment t v) := by
  unfold moment
  cases t <;> exact LineForm.isLiteral_call (by decide) (by decide) (by decide)

/-- A number begins like one, or is one of the words. -/
theorem isLiteral_number {v : Numeral} {t : NumberType} {digits : String}
    (h : Dialect.digits v t = .ok digits) : form.IsLiteral dialect (digits ++ numberSuffix t) := by
  have hstart : ∀ c ∈ form.quote :: form.sigil, Qualifiers.isStart c = true :=
    Text.forall_of_all (by decide)
  rcases Qualifiers.digits_cases h with ⟨hfractional, x, rfl⟩ | ⟨-, i, rfl⟩
  · rcases Qualifiers.floatText_cases x with hword | hnumber
    · obtain ⟨wide, fractional⟩ := t
      obtain rfl : fractional = true := hfractional
      simp only [List.mem_cons, List.not_mem_nil, or_false] at hword
      rcases hword with hword | hword <;> rw [hword] <;> cases wide <;> exact .inr (by decide)
    · exact LineForm.isLiteral_of_beginsNumber (hnumber.append _) hstart
  · exact LineForm.isLiteral_of_beginsNumber ((Qualifiers.beginsNumber_int i).append _) hstart

/-- A literal that is read as a name is one of the words. -/
theorem isLiteral_literal (n : BodyNode) (text : String) (h : dialect.literal n = .ok text) :
    form.IsLiteral dialect text := by
  cases n with
  | string v => exact .inl ⟨v, (Except.ok.inj h).symm⟩
  | number v type =>
    obtain ⟨digits, hdigits, hpure⟩ := Outcome.bind_eq_ok.1 h
    obtain rfl := Except.ok.inj hpure
    exact isLiteral_number hdigits
  | boolean b =>
    obtain rfl := Except.ok.inj h
    cases b <;> exact .inr (by decide)
  | guid v =>
    obtain rfl := Except.ok.inj h
    exact LineForm.isLiteral_call (by decide) (by decide) (by decide)
  | datetime v temporal =>
    obtain rfl := Except.ok.inj h
    exact isLiteral_moment temporal v
  | binary base64 =>
    obtain rfl := Except.ok.inj h
    exact LineForm.isLiteral_call (by decide) (by decide) (by decide)
  | stream bs =>
    obtain rfl := Except.ok.inj h
    exact LineForm.isLiteral_call (by decide) (by decide) (by decide)
  | enum t members flags =>
    obtain rfl := Except.ok.inj h
    exact isLiteral_enumValue t members flags
  | null =>
    obtain rfl := Except.ok.inj h
    exact .inr (by decide)
  | object t members derived => cases h
  | array item elements => cases h
  | map members => cases h

theorem suits : form.Suits dialect where
  reference _ := rfl
  quoted := LineForm.exists_inside
  literal := isLiteral_literal

/-- A line that declares a variable without its type. -/
theorem binds_var (hname : IsName name) (text : String) :
    form.Binds ("var " ++ name ++ " = " ++ text ++ ";") name (text.toList ++ form.stop) :=
  binds "var" (List.all_eq_true.1 (by decide)) hname (by simp [form])

/-- The call of a method on a line of its own. -/
theorem reads_method {op : Operand} {method arguments : List Char} (hst : op.Stems dialect ns)
    (hop : ∀ v ∈ op.name?, IsName v) (hname : IsName name)
    (hmethod : ∀ c ∈ method, isNameChar c = true)
    (harguments : form.behindKey arguments = (op.write dialect).toList ++ form.close)
    (hline : line.toList = name.toList ++ '.' :: (method ++ '(' :: arguments)) :
    form.Reads line [] [name] [op] :=
  suits.reads_call method hst hop hname hmethod (declaredIn_call hname hmethod hline) harguments
    hline

/-- A list is declared, and its elements are added to it. -/
theorem writes_list {item : Option ItemType} {elements : List Operand} (hname : IsName name)
    (hop : ∀ e ∈ elements, ∀ v ∈ e.name?, IsName v)
    (hst : ∀ e ∈ elements, e.Stems dialect ns) :
    form.Writes (.list name item elements) (statement (.list name item elements)) := by
  have htype : ∀ c ∈ ("LinkedList<" ++ itemType item ++ ">").toList, isTypeChar c = true := by
    rw [String.toList_append, String.toList_append]
    exact List.forall_mem_append.2 ⟨List.forall_mem_append.2
      ⟨List.all_eq_true.1 (by decide), isTypeChar_itemType item⟩, List.all_eq_true.1 (by decide)⟩
  have hline : form.Binds ("LinkedList<" ++ itemType item ++ "> " ++ name ++
      " = new LinkedList<" ++ itemType item ++ ">();") name
        ("new LinkedList<".toList ++ ((itemType item).toList ++ ">();".toList)) :=
    binds _ htype hname (by simp)
  have hadd : ∀ e ∈ elements,
      form.Reads (name ++ ".add(" ++ e.write dialect ++ ");") [] [name] [e] := by
    intro e he
    have htext : (name ++ ".add(" ++ e.write dialect ++ ");").toList = name.toList ++ '.' ::
        ("add".toList ++ '(' :: ((e.write dialect).toList ++ form.close)) := by
      simp [form]
    exact reads_method (hst e he) (hop e he) hname (List.all_eq_true.1 (by decide))
      (suits.behindKey_operand (hst e he) (hop e he) (by simp)) htext
  have hwrites : form.Writes (.list name item elements) (_ :: elements.map _ ++ []) :=
    LineForm.writes_declaration elements _ id [] rfl rfl
      (hline.reads (c := '(') (by simp) (by decide) (by decide)) hadd
      (List.Subset.refl _) (by simp)
  rwa [List.append_nil] at hwrites

/-- A map is declared, and its entries are put into it. -/
theorem writes_map {entries : List (String × Operand)} (hname : IsName name)
    (hop : ∀ e ∈ entries, ∀ v ∈ e.2.name?, IsName v)
    (hst : ∀ e ∈ entries, e.2.Stems dialect ns) :
    form.Writes (.map name entries) (statement (.map name entries)) := by
  have hline : form.Binds ("HashMap<String, Object> " ++ name ++ " = new HashMap<>();") name
      "new HashMap<>();".toList :=
    binds "HashMap<String, Object>" (List.all_eq_true.1 (by decide)) hname (by simp)
  have hput : ∀ e ∈ entries, form.Reads (name ++ ".put(" ++ Text.doubleQuoted e.1 ++ ", " ++
      e.2.write dialect ++ ");") [] [name] [e.2] := by
    intro e he
    have htext : (name ++ ".put(" ++ Text.doubleQuoted e.1 ++ ", " ++ e.2.write dialect ++
        ");").toList = name.toList ++ '.' :: ("put".toList ++ '(' :: ((dialect.text e.1).toList ++
          (form.keyed ++ ((e.2.write dialect).toList ++ form.close)))) := by
      simp [form, dialect]
    exact reads_method (hst e he) (hop e he) hname (List.all_eq_true.1 (by decide))
      (suits.behindKey_keyed e.1 _) htext
  have hwrites : form.Writes (.map name entries) (_ :: entries.map _ ++ []) :=
    LineForm.writes_declaration entries _ Prod.snd [] rfl rfl
      (hline.reads (c := '(') (by decide) (by decide) (by decide)) hput (List.Subset.refl _)
      (by simp)
  rwa [List.append_nil] at hwrites

/-- **The lines of a statement say what it does.** -/
theorem writes_statement (hdeclared : ∀ v, st.declared? = some v → IsName v)
    (hused : ∀ v ∈ st.used, IsName v) (hst : st.Stems dialect ns) :
    form.Writes st (statement st) := by
  cases st with
  | object name t =>
    have hline : form.Binds (Package.className t ++ " " ++ name ++ " = new " ++
        Package.className t ++ "();") name
          ("new ".toList ++ ((Package.className t).toList ++ "();".toList)) :=
      binds (Package.className t) (isTypeChar_pascal t.shortName) (hdeclared name rfl)
        (by simp [Package.className])
    exact LineForm.writes_line rfl rfl (hline.reads (c := '(') (by simp) (by decide) (by decide))
  | list name item elements =>
    exact writes_list (hdeclared name rfl)
      (fun e he v hv => hused v (List.mem_filterMap.2 ⟨e, he, hv⟩)) hst
  | map name entries =>
    exact writes_map (hdeclared name rfl)
      (fun e he v hv => hused v (List.mem_filterMap.2 ⟨e, he, hv⟩)) hst
  | assign owner member value =>
    have howner : IsName owner := hused owner List.mem_cons_self
    have hop : ∀ v ∈ value.name?, IsName v := fun v hv =>
      hused v (List.mem_cons_of_mem _ (Option.mem_toList.2 hv))
    have hmethod : ∀ c ∈ "set".toList ++ (Naming.pascal member).toList, isNameChar c = true :=
      List.forall_mem_append.2 ⟨List.all_eq_true.1 (by decide), isNameChar_pascal member⟩
    have htext : (owner ++ ".set" ++ Naming.pascal member ++ "(" ++ value.write dialect ++
        ");").toList = owner.toList ++ '.' :: (("set".toList ++ (Naming.pascal member).toList) ++
          '(' :: ((value.write dialect).toList ++ form.close)) := by
      simp [form]
    exact LineForm.writes_assign (reads_method hst hop howner hmethod
      (suits.behindKey_operand hst hop (by simp)) htext)
  | scalar name text =>
    exact LineForm.writes_line rfl rfl
      (suits.reads_literal hst (binds_var (hdeclared name rfl) text))
  | moment name text =>
    obtain ⟨v, hv, htext⟩ := hst
    exact LineForm.writes_line rfl rfl
      (suits.reads_literal ⟨_, hv, htext⟩ (binds_var (hdeclared name rfl) text))
  | stream name base64 =>
    have hline : form.Binds ("InputStream " ++ name ++ " = new ByteArrayInputStream(" ++
        octets base64 ++ ");") name
          ("new ByteArrayInputStream(".toList ++ ((octets base64).toList ++ ");".toList)) :=
      binds "InputStream" (List.all_eq_true.1 (by decide)) (hdeclared name rfl) (by simp)
    exact LineForm.writes_line rfl rfl (hline.reads (c := '(') (by simp) (by decide) (by decide))

theorem writes_body {root : BodyNode} {ss : List Statement} {op : Operand}
    (h : style.body dialect root = .ok (ss, op)) : ∀ st ∈ ss, form.Writes st (statement st) :=
  LineForm.writes_body rfl rfl (by decide) h fun _ hdeclared hused hst =>
    writes_statement (fun v hv => (hdeclared v hv).1) (fun v hv => (hused v hv).1) hst

end Java

namespace Php

/-! ## PHP -/

/-- The variable that a line declares: one that an equals sign follows. -/
def declaredIn (line : String) : List String :=
  match line.toList with
  | '$' :: cs =>
    if [' ', '='].isPrefixOf (cs.dropWhile isNameChar) then
      [String.ofList (cs.takeWhile isNameChar)]
    else []
  | _ => []

/-- How variables stand in lines. No word is mistaken for a variable, since
there is a dollar sign in front of these. -/
def form : LineForm where
  sigil := ['$']
  access := ['-', '>']
  quote := '\''
  isInner _ := true
  declaredIn := declaredIn
  close := [')', ';']
  becomes := ['=', ' ']
  stop := [';']
  keyed := [' ', '=', '>', ' ']
  words := []

theorem declaredIn_indented (line : String) : form.declaredIn (Language.indented line) = [] := by
  have hline : (Language.indented line).toList = '\t' :: line.toList := by
    rw [Language.indented, String.toList_append]
    rfl
  show declaredIn _ = []
  rw [declaredIn, hline]
  rfl

/-- A line that declares a variable. -/
theorem binds (hname : IsName name)
    (hline : line.toList = '$' :: (name.toList ++ ' ' :: '=' :: ' ' :: value)) :
    form.Binds line name value where
  declares := by
    have hspace : isNameChar ' ' = false := by decide
    show declaredIn line = [name]
    rw [declaredIn, hline]
    simp [Text.dropWhile_run hname.chars hspace, Text.takeWhile_run hname.chars hspace]
  calls := by
    refine LineForm.call?_eq_none (name.toList ++ ' ' :: '=' :: ' ' :: value) hline ?_
    rw [Text.dropWhile_run hname.chars (by decide)]
    exact fun h => absurd (Option.some.inj h) (by decide)
  indent := by
    rw [hline]
    exact fun h => absurd (Option.some.inj h) (by decide)
  front := by
    refine ⟨'$' :: (name.toList ++ [' ']), ?_, by simp [hline, form]⟩
    refine List.forall_mem_cons.2 ⟨by decide, List.forall_mem_append.2 ⟨fun c hc => ?_, ?_⟩⟩
    · exact LineForm.isFront_of_isNameChar (hname.chars c hc)
    · exact List.forall_mem_singleton.2 (by decide)

theorem declaredIn_call (hname : IsName name)
    (hline : line.toList = '$' :: (name.toList ++ '-' :: '>' :: value)) :
    form.declaredIn line = [] := by
  show declaredIn line = []
  rw [declaredIn, hline]
  simp [Text.dropWhile_run hname.chars (c := '-') (by decide)]

theorem round_mem_octets (base64 : String) : '(' ∈ (octets base64).toList := by
  have hcode : '(' ∈ "\\GuzzleHttp\\Psr7\\Utils::streamFor(base64_decode(".toList := by decide
  unfold octets
  rw [String.toList_append, String.toList_append]
  exact List.mem_append_left _ (List.mem_append_left _ hcode)

/-- What has no dollar sign is no variable. -/
theorem isLiteral_of_not_mem (hhead : text.toList.head? ≠ some '\'')
    (hdollar : '$' ∉ text.toList) : form.IsLiteral dialect text := by
  refine .inr ⟨hhead, fun v hv => ?_⟩
  unfold LineForm.named? at hv
  obtain ⟨rest, hrest, -⟩ := Option.bind_eq_some_iff.1 hv
  obtain ⟨start, hsplit, hstart⟩ := List.dropPrefix?_eq_some_iff.1 hrest
  obtain rfl : start = ['$'] := eq_of_beq hstart
  have hmem : '$' ∈ (text.toList.dropPrefix? ['&']).getD text.toList := by simp [hsplit]
  cases hdrop : text.toList.dropPrefix? ['&'] with
  | none =>
    rw [hdrop] at hmem
    exact absurd hmem hdollar
  | some more =>
    obtain ⟨start, htext, -⟩ := List.dropPrefix?_eq_some_iff.1 hdrop
    rw [hdrop] at hmem
    exact absurd (htext ▸ List.mem_append_right _ hmem) hdollar

/-- Numbers have neither quotes nor dollar signs. -/
theorem isLiteral_number {v : Numeral} {t : NumberType} {digits : String}
    (h : Dialect.digits v t = .ok digits) : form.IsLiteral dialect digits := by
  have hwritten : Number.IsWritten digits := by
    rcases Qualifiers.digits_cases h with ⟨-, x, rfl⟩ | ⟨-, i, rfl⟩
    · exact Number.isWritten_floatText x
    · exact Number.isWritten_int i
  refine isLiteral_of_not_mem (fun hhead => ?_) fun hdollar => ?_
  · exact absurd (hwritten _ (List.mem_of_mem_head? hhead)) (by decide)
  · exact absurd (hwritten _ hdollar) (by decide)

/-- A literal is never read as a name. -/
theorem isLiteral_literal (n : BodyNode) (text : String) (h : dialect.literal n = .ok text) :
    form.IsLiteral dialect text := by
  cases n with
  | string v => exact .inl ⟨v, (Except.ok.inj h).symm⟩
  | number v type =>
    obtain ⟨digits, hdigits, hpure⟩ := Outcome.bind_eq_ok.1 h
    obtain rfl := Except.ok.inj hpure
    exact isLiteral_number hdigits
  | boolean b =>
    obtain rfl := Except.ok.inj h
    cases b <;> exact .inr (by decide)
  | guid v => exact .inl ⟨v, (Except.ok.inj h).symm⟩
  | datetime v temporal =>
    obtain rfl := Except.ok.inj h
    cases temporal <;> exact LineForm.isLiteral_call (by decide) (by decide) (by decide)
  | binary base64 =>
    obtain rfl := Except.ok.inj h
    exact LineForm.isLiteral_call (by decide) (by decide) (by decide)
  | stream bs =>
    obtain rfl := Except.ok.inj h
    exact LineForm.isLiteral_call (by decide) (by decide) (by decide)
  | enum t members flags =>
    obtain rfl := Except.ok.inj h
    have hhead : ("new " ++ Package.className t ++ "(").toList.head?.any (· != '\'') = true := by
      rw [String.toList_append, String.toList_append]
      rfl
    exact LineForm.isLiteral_call hhead (by simp) (by decide)
  | null =>
    obtain rfl := Except.ok.inj h
    exact .inr (by decide)
  | object t members derived => cases h
  | array item elements => cases h
  | map members => cases h

theorem suits : form.Suits dialect where
  reference v := by
    show ("$" ++ v).toList = _
    rw [String.toList_append]
    rfl
  quoted s := ⟨s.toList.flatMap Text.escapeSingle, String.toList_ofList,
    Quoted.passes_flatMap Quoted.passes_escapeSingle⟩
  literal := isLiteral_literal

/-- A line that declares a variable with its value. -/
theorem binds_value (hname : IsName name) (text : String) :
    form.Binds (variableText name ++ " = " ++ text ++ ";") name (text.toList ++ form.stop) :=
  binds hname (by simp [form, variableText])

/-- **The lines of a statement say what it does.** -/
theorem writes_statement (hdeclared : ∀ v, st.declared? = some v → IsName v)
    (hused : ∀ v ∈ st.used, IsName v) (hst : st.Stems dialect ns) :
    form.Writes st (statement st) := by
  have hclosing : ∀ line ∈ ["];"], form.Reads line [] [] [] :=
    List.forall_mem_singleton.2 ⟨by decide, by decide, by decide, by simp⟩
  cases st with
  | object name t =>
    have hline : form.Binds (variableText name ++ " = new " ++ Package.className t ++ "();") name
        ("new ".toList ++ ((Package.className t).toList ++ "();".toList)) :=
      binds (hdeclared name rfl) (by simp [variableText])
    exact LineForm.writes_line rfl rfl (hline.reads (c := '(') (by simp) (by decide) (by decide))
  | list name item elements =>
    have hname : IsName name := hdeclared name rfl
    cases elements with
    | nil =>
      have hline : form.Binds (variableText name ++ " = [];") name "[];".toList :=
        binds hname (by simp [variableText])
      exact LineForm.writes_line rfl rfl
        (hline.reads (c := '[') (by decide) (by decide) (by decide))
    | cons first elements =>
      have hline : form.Binds (variableText name ++ " = [") name "[".toList :=
        binds hname (by simp [variableText])
      refine LineForm.writes_declaration (first :: elements) _ id _ rfl rfl
        (hline.reads (c := '[') (by decide) (by decide) (by decide)) (fun e he => ?_)
        (List.nil_subset _) hclosing
      exact suits.reads_element (hst e he)
        (fun v hv => hused v (List.mem_filterMap.2 ⟨e, he, hv⟩)) declaredIn_indented
  | map name entries =>
    have hline : form.Binds (variableText name ++ " = [") name "[".toList :=
      binds (hdeclared name rfl) (by simp [variableText])
    refine LineForm.writes_declaration entries _ Prod.snd _ rfl rfl
      (hline.reads (c := '[') (by decide) (by decide) (by decide)) (fun e he => ?_)
      (List.nil_subset _) hclosing
    exact suits.reads_entry (hst e he) (fun v hv => hused v (List.mem_filterMap.2 ⟨e, he, hv⟩))
      rfl rfl declaredIn_indented
  | assign owner member value =>
    have howner : IsName owner := hused owner List.mem_cons_self
    have hop : ∀ v ∈ value.name?, IsName v := fun v hv =>
      hused v (List.mem_cons_of_mem _ (Option.mem_toList.2 hv))
    have hmethod : ∀ c ∈ "set".toList ++ (Naming.pascal member).toList, isNameChar c = true :=
      List.forall_mem_append.2 ⟨List.all_eq_true.1 (by decide), isNameChar_pascal member⟩
    have htext : (variableText owner ++ "->set" ++ Naming.pascal member ++ "(" ++
        value.write dialect ++ ");").toList = '$' :: (owner.toList ++ '-' :: '>' ::
          (("set".toList ++ (Naming.pascal member).toList) ++
            '(' :: ((value.write dialect).toList ++ form.close))) := by
      simp [form, variableText]
    exact LineForm.writes_assign (suits.reads_call _ hst hop howner hmethod
      (declaredIn_call howner htext) (suits.behindKey_operand hst hop (by simp)) htext)
  | scalar name text =>
    exact LineForm.writes_line rfl rfl
      (suits.reads_literal hst (binds_value (hdeclared name rfl) text))
  | moment name text =>
    obtain ⟨v, hv, htext⟩ := hst
    exact LineForm.writes_line rfl rfl
      (suits.reads_literal ⟨_, hv, htext⟩ (binds_value (hdeclared name rfl) text))
  | stream name base64 =>
    have hline := binds_value (hdeclared name rfl) (octets base64)
    exact LineForm.writes_line rfl rfl (hline.reads
      (List.mem_append_left _ (round_mem_octets base64)) (by decide) (by decide))

theorem writes_body {root : BodyNode} {ss : List Statement} {op : Operand}
    (h : style.body dialect root = .ok (ss, op)) : ∀ st ∈ ss, form.Writes st (statement st) :=
  LineForm.writes_body rfl rfl (by decide) h fun _ hdeclared hused hst =>
    writes_statement (fun v hv => (hdeclared v hv).1) (fun v hv => (hused v hv).1) hst

end Php

namespace Language

/-! ## Bodies -/

/-- **Bodies as statements are well scoped** in Java, Go and PHP. What is
written for a body, whatever its members and types are called, are the lines of
statements in which every container of the body is declared exactly once, all
variables have different names, none of them a reserved one, and a statement
refers only to variables declared above it. The lines of a statement declare its
variable and use those it refers to, so the same is read off the lines; and the
argument that stands for a container is its variable. -/
theorem bodyCode_wellScoped {l : Language} {f : LineForm}
    (hl : (l, f) ∈ [(Java.language, Java.form), (Go.language, Go.form), (Php.language, Php.form)])
    {g : BodyGraph} {r : ResolvedRequest} {lines : List String} {argument : Option String}
    (h : l.bodyCode g r = .ok (lines, argument)) :
    ∃ s ss op, l.body = .setter s ∧ s.body l.dialect g.root = .ok (ss, op) ∧
      lines = ss.flatMap (s.write r.segments) ∧ argument = some (op.write l.dialect) ∧
      SetterStyle.WellScoped l.dialect g.root ss op ∧
      (∀ st ∈ ss, f.Writes st (s.write r.segments st)) ∧
      f.Scoped l.dialect.reservedLocals lines ∧
      (g.root.isContainer = true →
        ∃ v ∈ f.declaredBy lines, argument = some (l.dialect.reference v)) := by
  have hstyle : ∃ s, l.body = .setter s ∧ l.dialect.reservedLocals.Nodup ∧
      ∀ ss op, s.body l.dialect g.root = .ok (ss, op) →
        ∀ st ∈ ss, f.Writes st (s.write r.segments st) := by
    simp only [List.mem_cons, List.not_mem_nil, or_false, Prod.mk.injEq] at hl
    rcases hl with ⟨rfl, rfl⟩ | ⟨rfl, rfl⟩ | ⟨rfl, rfl⟩
    · exact ⟨Java.style, rfl, by decide, fun ss op h => Java.writes_body h⟩
    · exact ⟨Go.style, rfl, by decide, fun ss op h => Go.writes_body r.segments h⟩
    · exact ⟨Php.style, rfl, by decide, fun ss op h => Php.writes_body h⟩
  obtain ⟨s, hs, hreserved, hwrites⟩ := hstyle
  rw [bodyCode, hs] at h
  obtain ⟨⟨ss, op⟩, hbody, h⟩ := Outcome.bind_eq_ok.1 h
  cases Outcome.pure_eq_ok.1 h
  have hscoped : SetterStyle.WellScoped l.dialect g.root ss op :=
    SetterStyle.wellScoped_body hreserved hbody
  refine ⟨s, ss, op, hs, hbody, rfl, rfl, hscoped, hwrites ss op hbody,
    LineForm.scoped_lines (hwrites ss op hbody) hscoped, fun hroot => ?_⟩
  obtain ⟨v, hv, rfl⟩ := hscoped.named hroot
  rw [LineForm.declaredBy_flatMap (hwrites ss _ hbody)]
  exact ⟨v, hv, rfl⟩

/-- A body in which names clash: with each other once they are cased, with a
reserved word, with a reserved name and with a name that has got a number. -/
def clashingBody : BodyGraph where
  root := .object (TypeRef.ofName "ns.thing")
    [("type", .string "a"), ("Type", .array none [.map [("err", .null)], .array none []]),
     ("type1", .object (TypeRef.ofName "ns.type") [] false), ("result", .boolean true)] false

/-- A request for that body. -/
def clashingRequest : ResolvedRequest where
  method := .post
  version := "v1.0"
  path := "/things"
  template := "/things"
  segments := [PathSegment.literal "things"]
  operation := { method := .post }
  query := []
  headers := []
  contentType := none
  body := none
  index := default

/-- What is written for that body in Go. -/
def clashingLines : List String :=
  ["requestBody := graphmodelsns.NewThing()", "type_ := \"a\"", "requestBody.SetType(&type_)",
    "item := map[string]interface\x7b\x7d\x7b", "\t\"err\" : nil,", "\x7d",
    "values := []interface\x7b\x7d \x7b", "\x7d",
    "type_1 := []interface\x7b\x7d \x7b", "\titem,", "\tvalues,", "\x7d",
    "requestBody.SetType(type_1)", "type1 := graphmodelsns.NewType()",
    "requestBody.SetType1(type1)", "result1 := true", "requestBody.SetResult(&result1)"]

theorem bodyCode_wellScoped_clashing :
    ∃ s ss op, Go.language.body = .setter s ∧
      s.body Go.language.dialect clashingBody.root = .ok (ss, op) ∧
      clashingLines = ss.flatMap (s.write clashingRequest.segments) ∧
      some "requestBody" = some (op.write Go.language.dialect) ∧
      SetterStyle.WellScoped Go.language.dialect clashingBody.root ss op ∧
      (∀ st ∈ ss, Go.form.Writes st (s.write clashingRequest.segments st)) ∧
      Go.form.Scoped Go.language.dialect.reservedLocals clashingLines ∧
      (clashingBody.root.isContainer = true → ∃ v ∈ Go.form.declaredBy clashingLines,
        some "requestBody" = some (Go.language.dialect.reference v)) :=
  bodyCode_wellScoped (l := Go.language) (g := clashingBody) (by simp) rfl

/-- Seven variables are read off these lines. -/
example : Go.form.declaredBy clashingLines = ["requestBody", "type_", "item", "values", "type_1",
    "type1", "result1"] := by
  decide

end Language

end ApiSnippets
