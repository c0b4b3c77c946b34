import ApiSnippets.Proofs.Code.Lines
import ApiSnippets.Proofs.Naming
import ApiSnippets.Proofs.Number.Text
import ApiSnippets.Proofs.Text.Cut
import ApiSnippets.Proofs.Text.Tokens
import ApiSnippets.Snippet
/-!
# The variables of a snippet in Go

The variables of a body are allocated, so no two of them are equal and none is
one of the names that the rest of the snippet uses. The variables of query
options are not: they are named after their options, and nothing keeps these
names apart from each other, from those of the body, and from the variable
that holds all options. A snippet declares each variable once exactly when
they differ by themselves (`write_declares_once`).

What a snippet declares is read off its lines: the names in front of `:=`.
-/

namespace ApiSnippets

namespace Go

open Locals (isNameChar IsName isNameChar_pascal)

/-! ## Declarations in lines -/

/-- A character between names. -/
def isGap (c : Char) : Bool :=
  c == ' ' || c == ','

/-- A character of a list of names. -/
def isFront (c : Char) : Bool :=
  isNameChar c || isGap c

/-- The variables that a line declares with `:=`, apart from `err`. -/
def declaredIn (line : String) : List String :=
  if [':', '='].isPrefixOf (line.toList.dropWhile isFront) then
    ((Text.fields isGap (line.toList.takeWhile isFront)).map String.ofList).filter (· ≠ "err")
  else []

/-- The variables that lines declare. -/
def declaredBy (lines : List String) : List String :=
  lines.flatMap declaredIn

@[simp] theorem declaredBy_nil : declaredBy [] = [] := rfl

@[simp] theorem declaredBy_append (xs ys : List String) :
    declaredBy (xs ++ ys) = declaredBy xs ++ declaredBy ys :=
  List.flatMap_append

@[simp] theorem declaredBy_cons (line : String) (lines : List String) :
    declaredBy (line :: lines) = declaredIn line ++ declaredBy lines :=
  List.flatMap_cons

/-- The name of a variable other than `err`. -/
structure IsVariable (name : String) : Prop extends IsName name where
  ne_err : name ≠ "err"

instance (name : String) : Decidable (IsVariable name) :=
  decidable_of_iff (IsName name ∧ name ≠ "err")
    ⟨fun h => ⟨h.1, h.2⟩, fun h => ⟨h.toIsName, h.ne_err⟩⟩

variable {name : String} {r : ResolvedRequest}

theorem isGap_of_isNameChar {c : Char} (h : isNameChar c = true) : isGap c = false := by
  cases hgap : isGap c with
  | false => rfl
  | true =>
    have hcases : c = ' ' ∨ c = ',' := by simpa [isGap] using hgap
    rcases hcases with rfl | rfl
    · exact absurd h (by decide)
    · exact absurd h (by decide)

theorem IsVariable.isFront (h : IsVariable name) : ∀ c ∈ name.toList, isFront c = true := by
  intro c hc
  simp [Go.isFront, h.chars c hc]

/-- Names in front of `:=` are declared. -/
theorem declaredIn_of_front {line : String} {front after : List Char}
    (hline : line.toList = front ++ ':' :: '=' :: after) (hfront : ∀ c ∈ front, isFront c = true) :
    declaredIn line =
      ((Text.fields isGap front).map String.ofList).filter (· ≠ "err") := by
  have hcolon : isFront ':' = false := by decide
  rw [declaredIn, hline, Text.dropWhile_run hfront hcolon, Text.takeWhile_run hfront hcolon]
  rfl

/-- A line that goes on in another way declares nothing. -/
theorem declaredIn_of_stop {line : String} (front : List Char) {after : List Char} {c : Char}
    (hline : line.toList = front ++ c :: after) (hfront : front.all isFront = true)
    (hc : isFront c = false) (hcolon : c ≠ ':') : declaredIn line = [] := by
  rw [declaredIn, hline, Text.dropWhile_run (List.all_eq_true.1 hfront) hc]
  simp [hcolon.symm]

theorem declaredIn_indented (line : String) : declaredIn (Language.indented line) = [] := by
  have hline : (Language.indented line).toList = [] ++ '\t' :: line.toList := by
    rw [Language.indented, String.toList_append]
    rfl
  exact declaredIn_of_stop [] hline (by simp) (by decide) (by decide)

theorem declaredBy_eq_nil {lines : List String} (h : ∀ line ∈ lines, declaredIn line = []) :
    declaredBy lines = [] :=
  List.flatMap_eq_nil_iff.2 h

/-- Nothing is declared on lines that are all indented. -/
theorem declaredBy_indented {α : Type} {xs : List α} {line : α → String}
    (h : ∀ x ∈ xs, ∃ text, line x = Language.indented text) : declaredBy (xs.map line) = [] := by
  refine declaredBy_eq_nil fun l hl => ?_
  obtain ⟨x, hx, rfl⟩ := List.mem_map.1 hl
  obtain ⟨text, htext⟩ := h x hx
  rw [htext]
  exact declaredIn_indented text

/-- A line that declares a name, alone or together with `err`. -/
theorem declaredIn_variable (h : IsVariable name) (front : List Char) {after : List Char}
    {line : String} {c : Char}
    (hline : line.toList = name.toList ++ c :: front ++ ':' :: '=' :: after)
    (hc : isGap c = true) (hfront : front.all isFront = true)
    (hothers : ((Text.fields isGap front).map String.ofList).filter (· ≠ "err") = []) :
    declaredIn line = [name] := by
  have hall : ∀ d ∈ name.toList ++ c :: front, Go.isFront d = true :=
    List.forall_mem_append.2 ⟨h.isFront,
      List.forall_mem_cons.2 ⟨by simp [isFront, hc], List.all_eq_true.1 hfront⟩⟩
  rw [declaredIn_of_front hline hall,
    Text.fields_run (fun d hd => isGap_of_isNameChar (h.chars d hd)) h.ne_nil hc,
    List.map_cons, List.filter_cons_of_pos (by simpa using h.ne_err), hothers,
    String.ofList_toList]

/-- An assignment declares the name in front. -/
theorem declaredIn_assignment (h : IsVariable name) {line : String} (value : String)
    (hline : line.toList = (name ++ " := " ++ value).toList) : declaredIn line = [name] :=
  declaredIn_variable h [] (by simpa using hline) (by decide) (by simp) (by decide)

/-! ## Bodies -/

/-- How variables stand in lines. -/
def form : LineForm where
  toMarking := .bare
  declaredIn := declaredIn
  close := [')']
  becomes := [':', '=', ' ']
  stop := []
  keyed := [' ', ':', ' ']
  words := ["nil", "true", "false"]

theorem exists_enumMember (t : TypeRef) (member : String) :
    ∃ more, (enumMember t member).toList = 'g' :: more ∧ '.' ∈ more := by
  refine ⟨"raphmodels".toList ++ (String.join ((Package.modelParts t).map Text.lower)).toList ++
    '.' :: ((Text.upper member).toList ++ '_' :: (Text.upper t.shortName).toList), ?_, by simp⟩
  simp only [enumMember, modelPackage, String.toList_append, List.append_assoc]
  rfl

/-- A literal that is read as a name is one of the words. -/
theorem isLiteral_literal (n : BodyNode) (text : String) (h : dialect.literal n = .ok text) :
    form.IsLiteral dialect text := by
  cases n with
  | string v => exact .inl ⟨v, (Except.ok.inj h).symm⟩
  | number v type =>
    obtain ⟨digits, -, hpure⟩ := Outcome.bind_eq_ok.1 h
    obtain rfl := Except.ok.inj hpure
    obtain ⟨wide, fractional⟩ := type
    cases wide <;> cases fractional <;>
      exact LineForm.isLiteral_call (by decide) (by decide) (by decide)
  | boolean b =>
    obtain rfl := Except.ok.inj h
    cases b <;> exact .inr (by decide)
  | guid v =>
    obtain rfl := Except.ok.inj h
    exact LineForm.isLiteral_call (by decide) (by decide) (by decide)
  | datetime v temporal => exact .inl ⟨v, (Except.ok.inj h).symm⟩
  | binary base64 =>
    obtain rfl := Except.ok.inj h
    exact LineForm.isLiteral_call (by decide) (by decide) (by decide)
  | stream octets =>
    obtain rfl := Except.ok.inj h
    exact LineForm.isLiteral_call (by decide) (by decide) (by decide)
  | enum t members flags =>
    obtain rfl := Except.ok.inj h
    cases members with
    | nil =>
      show form.IsLiteral dialect ""
      exact .inr (by decide)
    | cons member members =>
      obtain ⟨rest, hrest⟩ := LineForm.exists_intercalate_cons " | " (enumMember t member)
        (members.map (enumMember t))
      obtain ⟨more, hmore, hpoint⟩ := exists_enumMember t member
      have htext : (String.intercalate " | " ((member :: members).map (enumMember t))).toList =
          'g' :: (more ++ rest.toList) := by
        rw [List.map_cons, hrest, String.toList_append, hmore, List.cons_append]
      refine LineForm.isLiteral_of_mem (c := '.') ?_ ?_ (by decide) (by decide)
      · show (String.intercalate " | " ((member :: members).map (enumMember t))).toList.head? ≠ _
        rw [htext]
        exact fun hquote => absurd (Option.some.inj hquote) (by decide)
      · show '.' ∈ (String.intercalate " | " ((member :: members).map (enumMember t))).toList
        rw [htext]
        exact List.mem_cons_of_mem _ (List.mem_append_left _ hpoint)
  | null =>
    obtain rfl := Except.ok.inj h
    exact .inr (by decide)
  | object t members derived => cases h
  | array item elements => cases h
  | map members => cases h

theorem suits : form.Suits dialect where
  reference _ := rfl
  quoted := LineForm.exists_inside
  literal := isLiteral_literal

/-- A line that binds a variable, alone or together with `err`. -/
theorem binds (h : IsVariable name) (front : List Char) {value : List Char} {line : String}
    {c : Char} (hline : line.toList = name.toList ++ c :: (front ++ ':' :: '=' :: ' ' :: value))
    (hc : isGap c = true) (hfront : front.all isFront = true)
    (hothers : ((Text.fields isGap front).map String.ofList).filter (· ≠ "err") = []) :
    form.Binds line name value where
  declares := by
    have hcolon : line.toList = name.toList ++ c :: front ++ ':' :: '=' :: (' ' :: value) := by
      simp [hline]
    exact declaredIn_variable h front hcolon hc hfront hothers
  calls := by
    have hmark : isNameChar c = false ∧ some c ≠ form.access.head? := by
      have hcases : c = ' ' ∨ c = ',' := by simpa [isGap] using hc
      rcases hcases with rfl | rfl <;> decide
    refine LineForm.call?_eq_none (name.toList ++ c :: (front ++ ':' :: '=' :: ' ' :: value))
      hline ?_
    rw [Text.dropWhile_run h.chars hmark.1]
    exact hmark.2
  indent := hline ▸ LineForm.head_name h.toIsName _
  front := by
    have hall : ∀ a ∈ name.toList ++ c :: front, isFront a = true :=
      List.forall_mem_append.2 ⟨h.isFront,
        List.forall_mem_cons.2 ⟨by simp [isFront, hc], List.all_eq_true.1 hfront⟩⟩
    refine ⟨name.toList ++ c :: front, fun a ha => ?_, by simp [hline, form]⟩
    have hcases : isNameChar a = true ∨ a = ' ' ∨ a = ',' := by
      simpa [isFront, isGap] using hall a ha
    rcases hcases with hname | rfl | rfl
    · exact LineForm.isFront_of_isNameChar hname
    · decide
    · decide

theorem binds_assignment (h : IsVariable name) {line : String} (value : String)
    (hline : line.toList = (name ++ " := " ++ value).toList) :
    form.Binds line name value.toList :=
  binds h [] (by simpa using hline) (by decide) (by simp) (by decide)

/-- **The lines of a statement say what it does.** -/
theorem writes_statement {segments : List PathSegment} {st : Statement} {ns : List BodyNode}
    (hdeclared : ∀ v, st.declared? = some v → IsVariable v)
    (hused : ∀ v ∈ st.used, IsVariable v) (hst : st.Stems dialect ns) :
    form.Writes st (statement segments st) := by
  have hindented : ∀ line, form.declaredIn (Language.indented line) = [] := declaredIn_indented
  have hclosing : ∀ line ∈ ["\x7d"], form.Reads line [] [] [] :=
    List.forall_mem_singleton.2 ⟨by decide, by decide, by decide, by simp⟩
  cases st with
  | object name t =>
    have hline : form.Binds (name ++ " := " ++ constructor segments t ++ "()") name
        (constructor segments t ++ "()").toList :=
      binds_assignment (hdeclared name rfl) _ (by simp)
    have hreads := hline.reads (c := '(') (by simp) (by decide) (by decide)
    exact LineForm.writes_line rfl rfl hreads
  | list name item elements =>
    have hline : form.Binds (name ++ " := []" ++ itemType item ++ " \x7b") name
        ("[]" ++ itemType item ++ " \x7b").toList :=
      binds_assignment (hdeclared name rfl) _ (by simp)
    have hreads := hline.reads (c := '[') (by simp) (by decide) (by decide)
    refine LineForm.writes_declaration elements _ id _ rfl rfl hreads (fun e he => ?_)
      (List.nil_subset _) hclosing
    exact suits.reads_element (hst e he)
      (fun v hv => (hused v (List.mem_filterMap.2 ⟨e, he, hv⟩)).toIsName) hindented
  | map name entries =>
    have hline : form.Binds (name ++ " := map[string]interface\x7b\x7d\x7b") name
        "map[string]interface\x7b\x7d\x7b".toList :=
      binds_assignment (hdeclared name rfl) _ (by simp)
    have hreads := hline.reads (c := '[') (by simp) (by decide) (by decide)
    refine LineForm.writes_declaration entries _ Prod.snd _ rfl rfl hreads (fun e he => ?_)
      (List.nil_subset _) hclosing
    exact suits.reads_entry (hst e he)
      (fun v hv => (hused v (List.mem_filterMap.2 ⟨e, he, hv⟩)).toIsName) rfl rfl hindented
  | assign owner member value =>
    have howner : IsVariable owner := hused owner List.mem_cons_self
    have hname : ∀ v ∈ value.name?, IsName v := fun v hv =>
      (hused v (List.mem_cons_of_mem _ (Option.mem_toList.2 hv))).toIsName
    refine LineForm.writes_assign (suits.reads_call
      ("Set".toList ++ (Naming.pascal member).toList) hst hname howner.toIsName ?_ ?_
      (suits.behindKey_operand hst hname (by simp)) ?_)
    · exact List.forall_mem_append.2 ⟨List.all_eq_true.1 (by decide), isNameChar_pascal member⟩
    · exact declaredIn_of_stop owner.toList (c := '.')
        (by simp only [String.toList_append, List.append_assoc]; rfl)
        (List.all_eq_true.2 howner.isFront) (by decide) (by decide)
    · simp [form, Marking.bare]
  | scalar name text =>
    have hline : form.Binds (name ++ " := " ++ text) name text.toList :=
      binds_assignment (hdeclared name rfl) text rfl
    have hvalue : text.toList = text.toList ++ form.stop := (List.append_nil _).symm
    rw [hvalue] at hline
    exact LineForm.writes_line rfl rfl (suits.reads_literal hst hline)
  | moment name text =>
    have hline : form.Binds (name ++ " , err := time.Parse(time.RFC3339 , " ++ text ++ ")") name
        ("time.Parse(time.RFC3339 , ".toList ++ (text.toList ++ [')'])) :=
      binds (hdeclared name rfl) ", err ".toList (c := ' ')
        (by simp only [String.toList_append, List.append_assoc]; rfl) (by decide) (by decide)
        (by decide)
    have hreads := hline.reads (c := '(') (by simp) (by decide) (by decide)
    exact LineForm.writes_line rfl rfl hreads
  | stream name base64 =>
    have hline : form.Binds (name ++ ", err := base64.StdEncoding.DecodeString(" ++
        Text.doubleQuoted base64 ++ ")") name ("base64.StdEncoding.DecodeString(".toList ++
          ((Text.doubleQuoted base64).toList ++ [')'])) :=
      binds (hdeclared name rfl) " err ".toList (c := ',')
        (by simp only [String.toList_append, List.append_assoc]; rfl) (by decide) (by decide)
        (by decide)
    have hreads := hline.reads (c := '(') (by simp) (by decide) (by decide)
    exact LineForm.writes_line rfl rfl hreads

theorem isVariable_of_isName (h : IsName name ∧ name ∉ dialect.reservedLocals) :
    IsVariable name := by
  refine ⟨h.1, ?_⟩
  rintro rfl
  exact h.2 (by decide)

/-- **The lines of a body say what its statements do.** -/
theorem writes_body {root : BodyNode} {ss : List Statement} {op : Operand}
    (segments : List PathSegment) (h : style.body dialect root = .ok (ss, op)) :
    ∀ st ∈ ss, form.Writes st (statement segments st) :=
  LineForm.writes_body rfl rfl (by decide) h fun _ hdeclared hused hst =>
    writes_statement (fun v hv => isVariable_of_isName (hdeclared v hv))
      (fun v hv => isVariable_of_isName (hused v hv)) hst

theorem declaredBy_body {root : BodyNode} {ss : List Statement} {op : Operand}
    {segments : List PathSegment} (h : style.body dialect root = .ok (ss, op)) :
    declaredBy (ss.flatMap (style.write segments)) = SetterStyle.declared ss :=
  LineForm.declaredBy_flatMap (f := form) (writes_body segments h)

/-! ## Configurations and calls -/

/-- The variables for query options. -/
def optionNames (r : ResolvedRequest) : List String :=
  (optionVariables r).map Prod.fst

theorem isVariable_optionVariable (o : QueryOption) : IsVariable (optionVariable o) := by
  have hname : IsName "request" := by decide
  refine ⟨hname.append (isNameChar_pascal o.name), fun h => ?_⟩
  have hhead := congrArg (fun s => s.toList.head?) h
  simp [optionVariable, String.toList_append] at hhead

theorem declaredBy_headers : declaredBy (headers r) =
    if r.headers.isEmpty then [] else ["headers"] := by
  unfold headers
  split
  · rfl
  · have hadds : declaredBy (r.headers.map fun h => "headers.Add(" ++ Text.doubleQuoted h.name ++
        ", " ++ Text.doubleQuoted h.value ++ ")") = [] := by
      refine declaredBy_eq_nil fun line hmem => ?_
      obtain ⟨h, -, rfl⟩ := List.mem_map.1 hmem
      exact declaredIn_of_stop "headers".toList (c := '.')
        (by simp only [String.toList_append, List.append_assoc]; rfl) (by decide) (by decide)
        (by decide)
    have hfirst : declaredIn "headers := abstractions.NewRequestHeaders()" = ["headers"] := by
      decide
    have hlast : declaredIn "" = [] := by decide
    rw [declaredBy_append, declaredBy_append, hadds, declaredBy_cons, declaredBy_cons, hfirst,
      hlast]
    rfl

/-- Each variable has a line of its own. -/
theorem declaredBy_assignments {values : List (String × String)}
    (h : ∀ v ∈ values, IsVariable v.1) :
    declaredBy (values.map fun (name, value) => name ++ " := " ++ value) =
      values.map Prod.fst := by
  induction values with
  | nil => rfl
  | cons v values ih =>
    obtain ⟨hv, hvalues⟩ := List.forall_mem_cons.1 h
    have hline : declaredIn (v.1 ++ " := " ++ v.2) = [v.1] :=
      declaredIn_assignment hv v.2 rfl
    rw [List.map_cons, declaredBy_cons, hline, ih hvalues]
    rfl

theorem declaredBy_options : declaredBy ((optionVariables r).map fun (name, value) =>
    name ++ " := " ++ value) = optionNames r := by
  refine declaredBy_assignments fun v hv => ?_
  obtain ⟨o, -, rfl⟩ := List.mem_map.1 hv
  exact isVariable_optionVariable o

theorem declaredBy_queryParameters : declaredBy (queryParameters r) =
    optionNames r ++ if r.query.isEmpty then [] else ["requestParameters"] := by
  unfold queryParameters
  split
  · next hempty =>
    have hnone : r.query = [] := List.isEmpty_iff.1 hempty
    simp [optionNames, optionVariables, hnone]
  · have hfields : declaredBy (r.query.map fun o => Language.indented (optionField o)) = [] :=
      declaredBy_indented fun o _ => ⟨_, rfl⟩
    have hopen : declaredIn ("requestParameters := &" ++ configurationClass r ++
        "QueryParameters\x7b") = ["requestParameters"] :=
      declaredIn_assignment (by decide) ("&" ++ configurationClass r ++ "QueryParameters\x7b")
        (by simp)
    have hblank : ∀ lines : List String, declaredBy (if lines.isEmpty then [] else [""]) = [] := by
      intro lines
      split
      · rfl
      · decide
    have hclose : declaredIn "\x7d" = [] := by decide
    simp only [declaredBy_append, declaredBy_cons, declaredBy_nil, declaredBy_options, hblank,
      hfields, hopen, hclose, List.append_nil]

/-- What the configuration declares: the headers, the query options, the
variable of all of them, and itself. -/
theorem declaredBy_configuration : declaredBy (configuration r) =
    (if r.headers.isEmpty then [] else ["headers"]) ++
      (optionNames r ++ if r.query.isEmpty then [] else ["requestParameters"]) ++
      ["configuration"] := by
  have hfields : ∀ fields : List String, declaredBy (fields.map Language.indented) = [] :=
    fun fields => declaredBy_indented fun field _ => ⟨field, rfl⟩
  have hopen : declaredIn ("configuration := &" ++ configurationClass r ++
      "RequestConfiguration\x7b") = ["configuration"] :=
    declaredIn_assignment (by decide) ("&" ++ configurationClass r ++ "RequestConfiguration\x7b")
      (by simp)
  have hclose : declaredIn "\x7d" = [] := by decide
  simp only [configuration, declaredBy_append, declaredBy_cons, declaredBy_nil, declaredBy_headers,
    declaredBy_queryParameters, hfields, hopen, hclose, List.append_nil]

theorem start_step (name ending : String) :
    ∃ after, (dialect.step name ending).toList = '.' :: after := by
  refine ⟨(dialect.escape (dialect.segmentCase name)).toList ++ ending.toList, ?_⟩
  rw [Dialect.step, String.toList_append, String.toList_append]
  rfl

theorem start_roleAccessor (role : SegmentRole) :
    ∃ after, (dialect.roleAccessor role).toList = '.' :: after := by
  cases role with
  | literal name written => exact start_step _ _
  | parameter name => exact start_step _ _
  | keyed collection key => exact start_step _ _
  | alternate collection key value => exact start_step _ _
  | action name ps =>
    show ∃ after, (dialect.invocation name ps).toList = '.' :: after
    unfold Dialect.invocation
    split
    · exact start_step _ _
    · exact start_step _ _
  | function name ps =>
    show ∃ after, (dialect.invocation name ps).toList = '.' :: after
    unfold Dialect.invocation
    split
    · exact start_step _ _
    · exact start_step _ _
  | reference => exact start_step _ _

/-- What follows the client begins with a dot. -/
theorem start_chain (segments : List PathSegment) (ending : String) :
    ∃ after, (dialect.chain segments ++ "." ++ ending).toList = '.' :: after := by
  cases segments with
  | nil => exact ⟨ending.toList, by rw [String.toList_append, String.toList_append]; rfl⟩
  | cons s segments =>
    obtain ⟨after, hafter⟩ := start_roleAccessor s.role
    rw [String.toList_append, String.toList_append, Dialect.chain, String.toList_join,
      List.map_cons, List.flatMap_cons, Dialect.segmentAccessors, String.toList_append, hafter]
    exact ⟨_, rfl⟩

theorem declaredIn_call (segments : List PathSegment) (arguments : List String) :
    declaredIn (call (dialect.chain segments) arguments r) =
      if r.operation.responseSchema.isSome then ["result"] else [] := by
  obtain ⟨after, hafter⟩ := start_chain segments
    (Naming.pascal r.method.name ++ "(" ++ String.intercalate ", " arguments ++ ")")
  have hline : (call (dialect.chain segments) arguments r).toList =
      (if r.operation.responseSchema.isSome then "result, err := " else "").toList ++
        "graphClient".toList ++ '.' :: after := by
    rw [← hafter]
    simp only [call, String.toList_append, List.append_assoc]
  split
  · next hresult =>
    rw [if_pos hresult] at hline
    exact declaredIn_variable (by decide) " err ".toList (c := ',') hline
      (by decide) (by decide) (by decide)
  · next hresult =>
    rw [if_neg hresult] at hline
    exact declaredIn_of_stop "graphClient".toList hline (by decide) (by decide) (by decide)

/-! ## Snippets -/

open scoped List

/-- The variables besides those of the body and of single query options. -/
def fixedNames (r : ResolvedRequest) : List String :=
  (if r.headers.isEmpty then [] else ["headers"]) ++
    (if r.query.isEmpty then [] else ["requestParameters"]) ++
    (if r.hasConfiguration then ["configuration"] else []) ++
    (if r.operation.responseSchema.isSome then ["result"] else [])

/-- Variables of the body stay clear of them. -/
theorem fixedNames_subset (r : ResolvedRequest) : fixedNames r ⊆ dialect.reservedLocals := by
  unfold fixedNames
  split <;> split <;> split <;> split <;> decide

theorem nodup_fixedNames (r : ResolvedRequest) : (fixedNames r).Nodup := by
  unfold fixedNames
  split <;> split <;> split <;> split <;> decide

/-- Of all these only the variable of all query options looks like that of a
single one. -/
theorem eq_of_mem_fixedNames {v : String} (hfixed : v ∈ fixedNames r) (hv : v ∈ optionNames r) :
    v = "requestParameters" := by
  obtain ⟨o, ho, rfl⟩ := List.mem_map.1 hv
  obtain ⟨option, -, rfl⟩ := List.mem_map.1 ho
  have hstart : (optionVariable option).toList.take 3 = ['r', 'e', 'q'] := by
    rw [optionVariable, String.toList_append]
    rfl
  have honly : ∀ w ∈ dialect.reservedLocals, w.toList.take 3 = ['r', 'e', 'q'] →
      w = "requestParameters" := by decide
  exact honly _ (fixedNames_subset r hfixed) hstart

theorem mem_fixedNames_of_mem_optionNames {v : String} (hv : v ∈ optionNames r) :
    "requestParameters" ∈ fixedNames r := by
  have hquery : r.query.isEmpty = false := by
    cases hquery : r.query with
    | nil => simp [optionNames, optionVariables, hquery] at hv
    | cons o os => rfl
  simp [fixedNames, hquery]

/-- What the lines between the body and the call declare. -/
theorem declaredBy_lines : declaredBy (if r.hasConfiguration then configuration r else []) =
    (if r.headers.isEmpty then [] else ["headers"]) ++
      (optionNames r ++ if r.query.isEmpty then [] else ["requestParameters"]) ++
      if r.hasConfiguration then ["configuration"] else [] := by
  split
  · exact declaredBy_configuration
  · next hnone =>
    simp [ResolvedRequest.hasConfiguration] at hnone
    simp [optionNames, optionVariables, hnone.1, hnone.2]

/-- The variables of a body are distinct and none is a name of the rest. -/
theorem declaredBy_bodyPart {body : Option BodyGraph} {lines : List String}
    {argument : Option String} (h : Snippet.bodyPart language r body = .ok (lines, argument)) :
    (declaredBy lines).Nodup ∧ ∀ v ∈ declaredBy lines, v ∉ dialect.reservedLocals := by
  cases body with
  | none =>
    cases Except.ok.inj h
    simp
  | some g =>
    obtain ⟨⟨ss, op⟩, hbody, h⟩ := Outcome.bind_eq_ok.1 h
    cases Outcome.pure_eq_ok.1 h
    have hbody' : style.body dialect g.root = .ok (ss, op) := hbody
    have hscoped := SetterStyle.wellScoped_body (d := dialect) (by decide) hbody'
    rw [declaredBy_body hbody']
    exact ⟨hscoped.distinct, hscoped.unreserved⟩

/-- **A snippet declares each variable once** exactly when the variables of the
query options differ from each other, from the variable of all of them, and
from those of the body. -/
theorem write_declares_once {body : Option BodyGraph} {bodyLines : List String}
    {argument : Option String}
    (h : Snippet.bodyPart language r body = .ok (bodyLines, argument)) (imports : List String) :
    ∃ lines statement, lines = (if r.hasConfiguration then configuration r else []) ∧
      (∃ arguments, statement = call (dialect.chain r.segments) arguments r) ∧
      Snippet.write language r body imports =
        .ok (Snippet.ofBlocks [language.prologue, imports, bodyLines, lines, [statement]]) ∧
      ((declaredBy (bodyLines ++ lines ++ [statement])).Nodup ↔
        (optionNames r).Nodup ∧ "requestParameters" ∉ optionNames r ∧
          ∀ v ∈ optionNames r, v ∉ declaredBy bodyLines) := by
  obtain ⟨hdistinct, hunreserved⟩ := declaredBy_bodyPart h
  have hwrite : ∃ arguments, Snippet.write language r body imports =
      .ok (Snippet.ofBlocks [language.prologue, imports, bodyLines,
        if r.hasConfiguration then configuration r else [],
        [call (dialect.chain r.segments) arguments r]]) := by
    unfold Snippet.write
    rw [h]
    cases r.hasConfiguration with
    | true => exact ⟨_, rfl⟩
    | false => exact ⟨_, rfl⟩
  obtain ⟨arguments, hwrite⟩ := hwrite
  refine ⟨_, _, rfl, ⟨arguments, rfl⟩, hwrite, ?_⟩
  have hperm : declaredBy (bodyLines ++ (if r.hasConfiguration then configuration r else []) ++
      [call (dialect.chain r.segments) arguments r]) ~
        fixedNames r ++ (optionNames r ++ declaredBy bodyLines) := by
    simp only [declaredBy_append, declaredBy_cons, declaredBy_nil, declaredBy_lines,
      declaredIn_call, List.append_nil, fixedNames]
    refine List.perm_iff_count.2 fun v => ?_
    simp only [List.count_append]
    omega
  -- the fixed names are distinct and reserved, so only options can clash
  rw [hperm.nodup_iff, List.nodup_append, List.nodup_append]
  constructor
  · rintro ⟨-, ⟨hoptions, -, hbodies⟩, hfixed⟩
    refine ⟨hoptions, fun hmem => ?_, fun v hv hv' => hbodies v hv v hv' rfl⟩
    exact hfixed _ (mem_fixedNames_of_mem_optionNames hmem) _ (List.mem_append_left _ hmem) rfl
  · rintro ⟨hoptions, hparameters, hbodies⟩
    refine ⟨nodup_fixedNames r, ⟨hoptions, hdistinct, ?_⟩, ?_⟩
    · rintro v hv _ hv' rfl
      exact hbodies v hv hv'
    · rintro v hv _ hv' rfl
      rcases List.mem_append.1 hv' with hoption | hbodyName
      · exact hparameters (eq_of_mem_fixedNames hv hoption ▸ hoption)
      · exact hunreserved v hbodyName (fixedNames_subset r hv)

/-- A request with an option and a body whose member is called like the
variable for the option. -/
def topRequest : ResolvedRequest where
  method := .post
  version := "v1.0"
  path := "/things"
  template := "/things"
  segments := [PathSegment.literal "things"]
  operation := { method := .post }
  query := [{ name := "top", rawName := "$top", system := true, value := .int 5 }]
  headers := []
  contentType := some "application/json"
  body := none
  index := default

/-- The body of that request. -/
def topBody : BodyGraph where
  root := .object { name := "ThingsPostRequestBody", synthesized := true }
    [("requestTop", .number (.int 1) {})] false

/-- What is written for the body. -/
def topLines : List String :=
  ["requestBody := graphthings.NewThingsPostRequestBody()", "requestTop := int32(1)",
    "requestBody.SetRequestTop(&requestTop)"]

/-- The variable for the option has the name of a variable of the body. -/
theorem write_declares_once_top :
    Snippet.bodyPart language topRequest (some topBody) = .ok (topLines, some "requestBody") ∧
      optionNames topRequest = ["requestTop"] ∧
      declaredBy topLines = ["requestBody", "requestTop"] ∧
      ∃ lines statement, lines = configuration topRequest ∧
        (∃ arguments, statement = call ".Things()" arguments topRequest) ∧
        Snippet.write language topRequest (some topBody) [] =
          .ok (Snippet.ofBlocks [language.prologue, [], topLines, lines, [statement]]) ∧
        ((declaredBy (topLines ++ lines ++ [statement])).Nodup ↔
          (optionNames topRequest).Nodup ∧ "requestParameters" ∉ optionNames topRequest ∧
            ∀ v ∈ optionNames topRequest, v ∉ declaredBy topLines) := by
  have h : Snippet.bodyPart language topRequest (some topBody) =
      .ok (topLines, some "requestBody") := rfl
  exact ⟨h, by decide, by decide, write_declares_once h []⟩

end Go

end ApiSnippets
