import Mathlib.Data.List.Nodup
import ApiSnippets.Proofs.Entries
import ApiSnippets.Proofs.Request.Path
import ApiSnippets.Proofs.Text.Cut
import ApiSnippets.Request.Call
/-!
# Written calls

A call as a request writes it: a name, and the arguments between parentheses,
each a word with a value that is a quoted text or a plain one. Two scanners
read it. The cut of a path counts parentheses and quotes, and the reader of
arguments looks for the quote that closes a value; they agree on where a value
ends, whatever a quoted text holds (`arguments_are_opaque`).
-/

namespace ApiSnippets

namespace Call

open Text Text.Nesting

/-! ## What is written -/

/-- A text with every quote in it written twice. -/
def doubled (cs : List Char) : List Char :=
  replaceChar '\'' ['\'', '\''] cs

/-- A text that needs no quotes: none of its characters has a meaning in a
call, and there is no white space at its ends. -/
structure IsPlain (text : String) : Prop where
  chars : ∀ c ∈ text.toList, c ∉ ['\'', ',', '/', '(', ')']
  trimmed : strip text.toList = text.toList

/-- The value of an argument. -/
inductive Value where
  /-- Any text at all, between quotes. -/
  | quoted (text : String)
  | plain (text : String) (h : IsPlain text)

namespace Value

/-- The text that a value stands for. -/
def text : Value → String
  | quoted s => s
  | plain s _ => s

/-- The characters of a value as it is written. -/
def chars : Value → List Char
  | quoted s => '\'' :: (doubled s.toList ++ ['\''])
  | plain s _ => s.toList

/-- A value as it is written. -/
def write (v : Value) : String :=
  String.ofList v.chars

end Value

/-- An argument of a call. -/
structure Argument where
  name : String
  value : Value
  named : name ≠ ""
  isWord : ∀ c ∈ name.toList, Text.isWord c = true

namespace Argument

/-- An argument as it is written. -/
def write (a : Argument) : String :=
  a.name ++ "=" ++ a.value.write

/-- The characters of an argument as it is written. -/
def chars (a : Argument) : List Char :=
  a.name.toList ++ '=' :: a.value.chars

theorem toList_write (a : Argument) : a.write.toList = a.chars := by
  simp [write, chars, Value.write]

end Argument

/-- A call with arguments of different names. -/
structure Written where
  name : String
  arguments : List Argument
  chars : ∀ c ∈ name.toList, c ∉ ['(', ')', '/']
  distinct : (arguments.map (·.name)).Nodup

/-- A call as it is written. -/
def Written.text (w : Written) : String :=
  w.name ++ "(" ++ String.intercalate "," (w.arguments.map Argument.write) ++ ")"

/-- The characters of arguments with commas between them. -/
def argumentChars (as : List Argument) : List Char :=
  List.intercalate [','] (as.map Argument.chars)

theorem argumentChars_cons (a b : Argument) (as : List Argument) :
    argumentChars (a :: b :: as) = a.chars ++ ',' :: argumentChars (b :: as) := by
  simp [argumentChars, List.intercalate]

theorem toList_text (w : Written) :
    w.text.toList = w.name.toList ++ '(' :: (argumentChars w.arguments ++ [')']) := by
  simp [Written.text, argumentChars, String.toList_intercalate, List.map_map, Function.comp_def,
    Argument.toList_write]

/-- A text without parentheses. -/
def NoParentheses (s : String) : Prop :=
  ∀ c ∈ s.toList, c ≠ '(' ∧ c ≠ ')'

theorem Written.noParentheses_name (w : Written) : NoParentheses w.name := by
  intro c hc
  have hchars := w.chars c hc
  simp only [List.mem_cons, not_or] at hchars
  exact ⟨hchars.1, hchars.2.1⟩

/-! ## The cut of a path -/

/-- Inside the parentheses of a call, and outside of quotes. -/
def inside : Nesting := ⟨1, false⟩

/-- Inside the parentheses of a call, and between quotes. -/
def insideQuotes : Nesting := ⟨1, true⟩

/-- A text that begins and ends inside the parentheses of a call and does not
leave them. -/
def StaysInside (cs : List Char) : Prop :=
  after true inside cs = inside ∧ Whole true '/' inside cs

theorem StaysInside.append {cs ds : List Char} (hcs : StaysInside cs) (hds : StaysInside ds) :
    StaysInside (cs ++ ds) := by
  refine ⟨?_, whole_append.2 ⟨hcs.2, ?_⟩⟩
  · rw [after_append, hcs.1, hds.1]
  · rw [hcs.1]
    exact hds.2

theorem staysInside_of_not_isMark {cs : List Char} (h : ∀ c ∈ cs, isMark c = false) :
    StaysInside cs :=
  ⟨after_of_not_isMark h, whole_of_not_isMark rfl h⟩

/-- Between quotes, a doubled quote leaves the scanner where it was. -/
theorem doubled_stays (cs : List Char) :
    after true insideQuotes (doubled cs) = insideQuotes ∧
      Whole true '/' insideQuotes (doubled cs) := by
  induction cs with
  | nil => exact ⟨rfl, trivial⟩
  | cons c cs ih =>
    by_cases hc : c = '\''
    · subst hc
      rw [doubled, replaceChar_cons_self]
      exact ⟨ih.1, by simp, by simp [isOutside, insideQuotes, Nesting.step], ih.2⟩
    · rw [doubled, replaceChar_cons_of_ne hc]
      have hstep : Nesting.step true insideQuotes c = insideQuotes := by
        simp [Nesting.step, insideQuotes, hc]
      refine ⟨?_, by simp [isOutside, insideQuotes], ?_⟩
      · rw [after_cons, hstep]
        exact ih.1
      · rw [hstep]
        exact ih.2

theorem staysInside_value (v : Value) : StaysInside v.chars := by
  cases v with
  | plain s h =>
    refine staysInside_of_not_isMark fun c hc => ?_
    have hchars := h.chars c hc
    simp only [List.mem_cons, not_or] at hchars
    simp [isMark, hchars]
  | quoted s =>
    obtain ⟨hafter, hwhole⟩ := doubled_stays s.toList
    have hopen : Nesting.step true inside '\'' = insideQuotes := rfl
    rw [Value.chars]
    refine ⟨?_, by simp [isOutside, inside], ?_⟩
    · rw [after_cons, hopen, after_append, hafter]
      rfl
    · rw [hopen, whole_append, hafter]
      exact ⟨hwhole, by simp [isOutside, insideQuotes], trivial⟩

theorem isMark_of_isWord {c : Char} (h : Text.isWord c = true) : isMark c = false := by
  by_contra hmark
  rw [Bool.not_eq_false, isMark, Bool.or_eq_true, Bool.or_eq_true, beq_iff_eq, beq_iff_eq,
    beq_iff_eq] at hmark
  rcases hmark with (rfl | rfl) | rfl <;> exact absurd h (by decide)

theorem staysInside_argument (a : Argument) : StaysInside a.chars := by
  have hname := staysInside_of_not_isMark fun c hc => isMark_of_isWord (a.isWord c hc)
  have hequals : StaysInside ['='] := staysInside_of_not_isMark (by simp [isMark])
  exact hname.append (hequals.append (staysInside_value a.value))

theorem staysInside_arguments (as : List Argument) : StaysInside (argumentChars as) := by
  induction as with
  | nil => exact ⟨rfl, trivial⟩
  | cons a as ih =>
    cases as with
    | nil => simpa [argumentChars] using staysInside_argument a
    | cons b as =>
      have hcomma : StaysInside [','] := staysInside_of_not_isMark (by simp [isMark])
      rw [argumentChars_cons]
      exact (staysInside_argument a).append (hcomma.append ih)

theorem after_text (w : Written) : after true outside w.text.toList = outside := by
  rw [toList_text, after_append, after_of_no_parentheses w.noParentheses_name]
  show after true inside (argumentChars w.arguments ++ [')']) = outside
  rw [after_append, (staysInside_arguments w.arguments).1]
  rfl

/-- **A written call is one segment.** -/
theorem isSegment_text (w : Written) : Path.IsSegment w.text.toList := by
  have hname : Whole true '/' outside w.name.toList :=
    whole_of_not_mem fun hslash => w.chars '/' hslash (by simp)
  obtain ⟨hafter, hwhole⟩ := staysInside_arguments w.arguments
  rw [Path.IsSegment, toList_text]
  refine ⟨by simp, whole_append.2 ⟨hname, ?_⟩⟩
  rw [after_of_no_parentheses w.noParentheses_name]
  refine ⟨by simp, whole_append.2 ⟨hwhole, ?_⟩⟩
  show Whole true '/' (after true inside (argumentChars w.arguments)) [')']
  rw [hafter]
  exact ⟨by simp [isOutside, inside], trivial⟩

theorem segments_text (w : Written) {before : String} (hbefore : NoParentheses before)
    (after : String) :
    Path.segments (before ++ "/" ++ w.text ++ "/" ++ after) =
      Path.segments before ++ [w.text] ++ Path.segments after := by
  have hcall := isSegment_text w
  have hchars : (before ++ "/" ++ w.text ++ "/" ++ after).toList =
      before.toList ++ '/' :: (w.text.toList ++ '/' :: after.toList) := by
    simp
  unfold Path.segments
  rw [hchars, Path.segmentsOf_append_slash (after_of_no_parentheses hbefore),
    Path.segmentsOf_append_slash (after_text w), Path.segmentsOf_of_whole hcall.2 hcall.1]
  simp

/-! ## The reader of arguments -/

/-- What follows a value: nothing, or a comma. -/
def EndsValue (rest : List Char) : Prop :=
  rest = [] ∨ ∃ more, rest = ',' :: more

/-- Characters that are read as one value, blanks in front of them apart. -/
inductive IsValue : List Char → Prop
  | quoted (cs : List Char) : IsValue ('\'' :: (doubled cs ++ ['\'']))
  | bare {cs : List Char} : '\'' ∉ cs → ',' ∉ cs → IsValue cs

variable {cs rest name value : List Char}

/-- **A quoted text ends at the quote that closes it**, after all the doubled
ones. The induction is on the text between the quotes. -/
theorem closeQuote_doubled (cs : List Char) (h : EndsValue rest) :
    closeQuote (doubled cs ++ '\'' :: rest) = some (doubled cs ++ ['\''], rest) := by
  induction cs with
  | nil =>
    rcases h with rfl | ⟨more, rfl⟩
    · rfl
    · simp [doubled, closeQuote]
  | cons c cs ih =>
    by_cases hc : c = '\''
    · subst hc
      rw [doubled, replaceChar_cons_self]
      rw [doubled] at ih
      simp [closeQuote, ih]
    · rw [doubled, replaceChar_cons_of_ne hc]
      rw [doubled] at ih
      simp [closeQuote, ih, hc]

/-- A value that begins with no quote goes up to the next comma. -/
theorem takeValue_eq_upToComma (h : cs.head? ≠ some '\'') : takeValue cs = upToComma cs := by
  unfold takeValue
  split
  · exact absurd rfl h
  · rfl

theorem EndsValue.head_append (h : EndsValue rest) (hcs : '\'' ∉ cs) :
    (cs ++ rest).head? ≠ some '\'' := by
  intro hhead
  have hmem : '\'' ∈ cs ++ rest := List.mem_of_head? hhead
  cases cs with
  | nil => rcases h with rfl | ⟨more, rfl⟩ <;> simp at hhead
  | cons c cs => exact hcs (by simp_all)

theorem upToComma_append (hcs : ',' ∉ cs) (h : EndsValue rest) :
    upToComma (cs ++ rest) = (cs, rest) := by
  rw [upToComma]
  rcases h with rfl | ⟨more, rfl⟩
  · rw [List.append_nil, takeWhile_ne_of_not_mem hcs, dropWhile_ne_of_not_mem hcs]
  · have hrun : ∀ d ∈ cs, (d != ',') = true :=
      fun d hd => bne_iff_ne.2 fun hdc => hcs (hdc ▸ hd)
    rw [takeWhile_run hrun rfl, dropWhile_run hrun rfl]

/-- **A value is taken whole**, from where its blanks end to what follows it. -/
theorem IsValue.takeValue (hvalue : IsValue value) (h : EndsValue rest) :
    takeValue ((value ++ rest).dropWhile isBlank) = (value.dropWhile isBlank, rest) := by
  cases hvalue with
  | quoted cs =>
    have hquote : isBlank '\'' = false := by decide
    have hclose := closeQuote_doubled cs h
    rw [List.cons_append, List.dropWhile_cons_of_neg (by simp [hquote]),
      List.dropWhile_cons_of_neg (by simp [hquote])]
    simp [Call.takeValue, hclose]
  | bare hquote hcomma =>
    have hdrop : (value ++ rest).dropWhile isBlank = value.dropWhile isBlank ++ rest := by
      rcases h with rfl | ⟨more, rfl⟩
      · rw [List.append_nil, List.append_nil]
      · exact dropWhile_append_stop (by decide)
    have hsuffix := List.dropWhile_suffix (l := value) isBlank
    rw [hdrop, takeValue_eq_upToComma (h.head_append fun hc => hquote (hsuffix.mem hc)),
      upToComma_append (fun hc => hcomma (hsuffix.mem hc)) h]

/-- Characters that are read as the name and the value of one argument. -/
structure IsArgument (name value : List Char) : Prop where
  named : name ≠ []
  isWord : ∀ c ∈ name, Text.isWord c = true
  isValue : IsValue value

/-- A word that an equals sign follows is the name of an argument. -/
theorem scan_of_afterEquals? {c : Char} {found : List Char} (hc : Text.isWord c = true)
    (h : afterEquals? ((c :: cs).dropWhile Text.isWord) = some found) :
    scan (c :: cs) = ((c :: cs).takeWhile Text.isWord, strip (takeValue found).1) ::
      scan (takeValue found).2 := by
  rw [scan, if_pos hc]
  split
  · next found' hfound =>
    obtain rfl := Option.some.inj (h.symm.trans hfound)
    rfl
  · next hnone => simp [h] at hnone

/-- What is no argument is passed over. -/
theorem scan_skip {c : Char} (h : Text.isWord c = true →
    afterEquals? ((c :: cs).dropWhile Text.isWord) = none) : scan (c :: cs) = scan cs := by
  rw [scan]
  split
  · next hc =>
    split
    · next hfound => simp [h hc] at hfound
    · rfl
  · rfl

/-- **An argument is read as it is written**, without the blanks around its
value, and what follows it is read alone. -/
theorem scan_argument (ha : IsArgument name value) (h : EndsValue rest) :
    scan (name ++ '=' :: (value ++ rest)) = (name, strip value) :: scan rest := by
  have hequals : Text.isWord '=' = false := by decide
  have hword : (name ++ '=' :: (value ++ rest)).takeWhile Text.isWord = name :=
    takeWhile_run ha.isWord hequals
  have hrest : afterEquals? ((name ++ '=' :: (value ++ rest)).dropWhile Text.isWord) =
      some ((value ++ rest).dropWhile isBlank) := by
    rw [dropWhile_run ha.isWord hequals]
    rfl
  have hstrip : strip (value.dropWhile isBlank) = strip value := trim_dropWhile
  obtain ⟨c, more, hname⟩ := List.exists_cons_of_ne_nil ha.named
  have hc : Text.isWord c = true := ha.isWord c (hname ▸ List.mem_cons_self)
  rw [hname, List.cons_append] at hword hrest ⊢
  rw [scan_of_afterEquals? hc hrest, hword, ha.isValue.takeValue h, hstrip]

theorem scan_comma (cs : List Char) : scan (',' :: cs) = scan cs :=
  scan_skip fun h => absurd h (by decide)

/-- Arguments with commas between them. -/
def joined (args : List (List Char × List Char)) : List Char :=
  List.intercalate [','] (args.map fun a => a.1 ++ '=' :: a.2)

theorem joined_cons (a b : List Char × List Char) (args : List (List Char × List Char)) :
    joined (a :: b :: args) = a.1 ++ '=' :: (a.2 ++ ',' :: joined (b :: args)) := by
  simp [joined, List.intercalate]

/-- **Arguments are read in order.** -/
theorem scan_joined (args : List (List Char × List Char)) (h : ∀ a ∈ args, IsArgument a.1 a.2) :
    scan (joined args) = args.map fun a => (a.1, strip a.2) := by
  induction args with
  | nil => rw [joined, List.map_nil, List.intercalate_nil, scan]; rfl
  | cons a args ih =>
    obtain ⟨ha, hargs⟩ := List.forall_mem_cons.1 h
    cases args with
    | nil =>
      have hlast := scan_argument ha (.inl rfl)
      rw [List.append_nil] at hlast
      simp [joined, hlast, scan]
    | cons b args =>
      rw [joined_cons, scan_argument ha (.inr ⟨_, rfl⟩), scan_comma, ih hargs]
      rfl

/-- **A call is read as its name and its arguments**, which have to have
different names. -/
theorem ofChars_joined {args : List (List Char × List Char)} (hname : '(' ∉ name)
    (hargs : ∀ a ∈ args, IsArgument a.1 a.2) (hdistinct : (args.map Prod.fst).Nodup) :
    ofChars (name ++ '(' :: (joined args ++ [')'])) =
      ⟨String.ofList name,
        args.map fun a => (String.ofList a.1, String.ofList (strip a.2))⟩ := by
  have hkeys : (Entries.keys (args.map fun a =>
      (String.ofList a.1, String.ofList (strip a.2)))).Nodup := by
    have hmap : Entries.keys (args.map fun a => (String.ofList a.1, String.ofList (strip a.2))) =
        (args.map Prod.fst).map String.ofList := by
      simp [Entries.keys, Function.comp_def]
    rw [hmap]
    exact List.Nodup.map (fun _ _ => String.ofList_inj.1) hdistinct
  have hread : argumentsOf (joined args) =
      args.map fun a => (String.ofList a.1, String.ofList (strip a.2)) := by
    rw [argumentsOf, scan_joined args hargs, List.map_map]
    exact Entries.ofPairs_of_nodup hkeys
  rw [ofChars, List.reverse_append, List.reverse_cons, List.reverse_append]
  simp [cutAt_append hname, hread]

theorem strip_chars (v : Value) : strip v.chars = v.chars := by
  cases v with
  | quoted s => exact trim_enclosed rfl rfl
  | plain s hs => exact hs.trimmed

theorem isArgument (a : Argument) : IsArgument a.name.toList a.value.chars := by
  refine ⟨mt String.toList_eq_nil_iff.1 a.named, a.isWord, ?_⟩
  cases a.value with
  | quoted s => exact .quoted s.toList
  | plain s hs =>
    exact .bare (fun hc => hs.chars _ hc (by simp)) fun hc => hs.chars _ hc (by simp)

/-- **A written call is read as it is written.** -/
theorem ofSegment_text (w : Written) :
    ofSegment w.text = ⟨w.name, w.arguments.map fun a => (a.name, a.value.write)⟩ := by
  have hjoined : argumentChars w.arguments =
      joined (w.arguments.map fun a => (a.name.toList, a.value.chars)) := by
    rw [argumentChars, joined, List.map_map]
    rfl
  have hopen : '(' ∉ w.name.toList := fun hc => (w.noParentheses_name _ hc).1 rfl
  have hargs : ∀ p ∈ w.arguments.map fun a => (a.name.toList, a.value.chars),
      IsArgument p.1 p.2 := by
    intro p hp
    obtain ⟨a, -, rfl⟩ := List.mem_map.1 hp
    exact isArgument a
  have hdistinct : ((w.arguments.map fun a => (a.name.toList, a.value.chars)).map
      Prod.fst).Nodup := by
    have hnames : ((w.arguments.map (·.name)).map String.toList).Nodup :=
      List.Nodup.map (fun _ _ => String.toList_inj.1) w.distinct
    simpa [Function.comp_def] using hnames
  rw [ofSegment, toList_text, hjoined, ofChars_joined hopen hargs hdistinct]
  simp [Function.comp_def, strip_chars, Value.write]

/-! ## The text of a value -/

/-- **A value stands for the text it was written for.** -/
theorem unquote_write (v : Value) : unquote v.write = v.text := by
  rw [unquote, unquoteChars, Value.write, String.toList_ofList, strip_chars]
  cases v with
  | quoted s => simp [Value.chars, Value.text, doubled, replacePair_replaceChar]
  | plain s hs =>
    have hquote : '\'' ∉ s.toList := fun hc => hs.chars _ hc (by simp)
    rw [Value.chars, Value.text]
    split
    · next more hmore => exact absurd (hmore ▸ List.mem_cons_self) hquote
    · exact String.ofList_toList

/-- **The arguments of a call are opaque.** Between slashes, after a text
without parentheses, a written call is one segment; its name and the written
values of its arguments are read in order; and each value stands for the text
it was written for, whatever slashes, commas, equals signs, parentheses and
quotes a quoted one holds. -/
theorem arguments_are_opaque (w : Written) (before after : String)
    (hbefore : NoParentheses before) :
    Path.segments (before ++ "/" ++ w.text ++ "/" ++ after) =
        Path.segments before ++ [w.text] ++ Path.segments after ∧
      ofSegment w.text = ⟨w.name, w.arguments.map fun a => (a.name, a.value.write)⟩ ∧
      ∀ a ∈ w.arguments, unquote a.value.write = a.value.text :=
  ⟨segments_text w hbefore after, ofSegment_text w, fun a _ => unquote_write a.value⟩

/-- A call with a quoted text that holds everything a call is made of, an empty
one, and a plain one. -/
def searchCall : Written where
  name := "search"
  arguments := [
    ⟨"path", .quoted "/a(b,'c=d'", by decide, List.all_eq_true.1 (by decide)⟩,
    ⟨"name", .quoted "", by decide, List.all_eq_true.1 (by decide)⟩,
    ⟨"top", .plain "3" ⟨by simp, by decide⟩, by decide, List.all_eq_true.1 (by decide)⟩]
  chars := by simp
  distinct := by decide

theorem arguments_are_opaque_search :
    NoParentheses "/me/drive" ∧
      Path.segments ("/me/drive" ++ "/" ++ searchCall.text ++ "/" ++ "items") =
        ["me", "drive", "search(path='/a(b,''c=d''',name='',top=3)", "items"] ∧
      ofSegment searchCall.text =
        ⟨"search", [("path", "'/a(b,''c=d'''"), ("name", "''"), ("top", "3")]⟩ ∧
      unquote "'/a(b,''c=d'''" = "/a(b,'c=d'" := by
  have hbefore : NoParentheses "/me/drive" := by simp [NoParentheses]
  obtain ⟨hsegments, hcall, hvalues⟩ := arguments_are_opaque searchCall "/me/drive" "items" hbefore
  refine ⟨hbefore, hsegments, hcall, ?_⟩
  exact hvalues ⟨"path", .quoted "/a(b,'c=d'", by decide, List.all_eq_true.1 (by decide)⟩
    (by simp [searchCall])

end Call

end ApiSnippets
