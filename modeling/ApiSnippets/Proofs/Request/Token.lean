import ApiSnippets.Proofs.Request.Call
import ApiSnippets.Proofs.Text.Case
/-!
# Calls in another letter case

A call as requests write it (`Call.Token`): names in ASCII, with values between
quotes or without anything that has a meaning in a call. Its parts are read as
they are written (`Token.ofSegment_text`), and a segment with the same lower case
has the same parts, up to letter case (`Token.parts_of_sameLetters`). The lower
case of the whole segment does not determine that of the name, because of the
capital sigma; a form in lower case that both have is what is left.
-/

namespace ApiSnippets

namespace Call

open Text

namespace Token

/-- The value of an argument. -/
inductive Value where
  /-- Any text at all, between quotes. -/
  | quoted (text : String)
  /-- A text that needs no quotes. Blanks around it do not count. -/
  | bare (text : String) (free : ∀ c ∈ text.toList, c ∉ ['\'', ',', '(', ')'])

namespace Value

/-- The characters of a value as it is written. -/
def chars : Value → List Char
  | quoted s => '\'' :: (doubled s.toList ++ ['\''])
  | bare s _ => s.toList

/-- The text that a value stands for. Blanks alone stand for none. -/
def text? : Value → Option String
  | quoted s => some s
  | bare s _ => if isBlankText s.toList then none else some (stripped s)

end Value

/-- An argument with a name in ASCII. -/
structure Argument where
  name : String
  value : Value
  named : name ≠ ""
  ascii : ∀ c ∈ name.toList, Text.isWord c = true ∧ c.toNat < 128

/-- An argument as it is written. -/
def Argument.write (a : Argument) : String :=
  a.name ++ "=" ++ String.ofList a.value.chars

end Token

/-- A call with arguments whose names differ in more than letter case. -/
structure Token where
  name : String
  arguments : List Token.Argument
  opens : '(' ∉ name.toList
  distinct : (arguments.map fun a => lower a.name).Nodup

namespace Token

/-- A call as it is written. -/
def text (t : Token) : String :=
  t.name ++ "(" ++ String.intercalate "," (t.arguments.map Argument.write) ++ ")"

/-- The names and the values of the arguments, as characters. -/
def pairs (t : Token) : List (List Char × List Char) :=
  t.arguments.map fun a => (a.name.toList, a.value.chars)

variable {t : Token} {segment : String} {a : Argument}

theorem toList_text (t : Token) :
    t.text.toList = t.name.toList ++ '(' :: (joined t.pairs ++ [')']) := by
  have hwrite : (t.arguments.map Argument.write).map String.toList =
      t.pairs.map fun a => a.1 ++ '=' :: a.2 := by
    simp [pairs, Argument.write, Function.comp_def]
  rw [text, joined, ← hwrite]
  simp [String.toList_intercalate]

theorem isArgument (a : Argument) : IsArgument a.name.toList a.value.chars := by
  refine ⟨mt String.toList_eq_nil_iff.1 a.named, fun c hc => (a.ascii c hc).1, ?_⟩
  cases a.value with
  | quoted s => exact .quoted s.toList
  | bare s free =>
    exact .bare (fun hc => free _ hc (by simp)) fun hc => free _ hc (by simp)

theorem isArgument_of_mem {p : List Char × List Char} (hp : p ∈ t.pairs) :
    IsArgument p.1 p.2 := by
  obtain ⟨a, -, rfl⟩ := List.mem_map.1 hp
  exact isArgument a

/-- The value of an argument as the reader of calls hands it on. -/
def Argument.written (a : Argument) : String :=
  stripped (String.ofList a.value.chars)

/-- **A call is read as it is written**, without the blanks around values. -/
theorem ofSegment_text (t : Token) :
    ofSegment t.text = ⟨t.name, t.arguments.map fun a => (a.name, a.written)⟩ := by
  have hdistinct : (t.pairs.map Prod.fst).Nodup := by
    have hnames : (t.arguments.map (·.name)).Nodup := by
      refine List.Nodup.of_map lower ?_
      simpa [Function.comp_def] using t.distinct
    have hchars := List.Nodup.map (fun _ _ => String.toList_inj.1) hnames
    simpa [pairs, Function.comp_def] using hchars
  rw [ofSegment, toList_text, ofChars_joined t.opens (fun _ => isArgument_of_mem) hdistinct]
  simp [pairs, Function.comp_def, Argument.written, stripped]

/-! ## The text of a value -/

theorem isBlankText_strip (cs : List Char) : isBlankText (strip cs) = isBlankText cs := by
  have hmem : ∀ c, isBlank c = false → (c ∈ strip cs ↔ c ∈ cs) := fun c => mem_trim
  rw [isBlankText, isBlankText, Bool.eq_iff_iff, List.all_eq_true, List.all_eq_true]
  constructor
  · intro h c hc
    by_contra hblank
    rw [Bool.not_eq_true] at hblank
    exact absurd (h c ((hmem c hblank).2 hc)) (by simp [hblank])
  · intro h c hc
    by_contra hblank
    rw [Bool.not_eq_true] at hblank
    exact absurd (h c ((hmem c hblank).1 hc)) (by simp [hblank])

/-- **A value that is not blank stands for its text.** -/
theorem unquote_written (a : Argument) : (if isBlankText a.written.toList then none else
    some (unquote a.written)) = a.value.text? := by
  rw [Argument.written, stripped, String.toList_ofList, String.toList_ofList]
  cases a.value with
  | quoted s =>
    have hstrip : strip (Call.Value.quoted s).chars = (Call.Value.quoted s).chars := strip_chars _
    have hquote : isBlank '\'' = false := by decide
    have hblank : isBlankText (Call.Value.quoted s).chars = false := by
      simp [isBlankText, Call.Value.chars, hquote]
    show (if isBlankText (strip (Call.Value.quoted s).chars) then none else
      some (unquote (String.ofList (strip (Call.Value.quoted s).chars)))) = some s
    rw [hstrip, hblank]
    exact congrArg some (unquote_write (.quoted s))
  | bare s free =>
    have hquote : '\'' ∉ strip s.toList := fun hc => free _ ((mem_trim (by decide)).1 hc) (by simp)
    have hunquote : unquote (String.ofList (strip s.toList)) = stripped s := by
      rw [unquote, unquoteChars, String.toList_ofList, stripped]
      rw [show strip (strip s.toList) = strip s.toList from trim_trim]
      split
      · next more hmore => exact absurd (hmore ▸ List.mem_cons_self) hquote
      · rfl
    rw [Value.chars, isBlankText_strip, hunquote]
    rfl

/-! ## The same call in another letter case -/

theorem doubled_append {cs : List Char} (hcs : '\'' ∉ cs) (ds : List Char) :
    doubled (cs ++ ds) = cs ++ doubled ds := by
  induction cs with
  | nil => rfl
  | cons c cs ih =>
    obtain ⟨hc, hcs⟩ := not_or.1 (mt List.mem_cons.2 hcs)
    rw [List.cons_append, doubled, replaceChar_cons_of_ne (Ne.symm hc)]
    exact congrArg (c :: ·) (ih hcs)

theorem doubled_quote (cs : List Char) :
    doubled ('\'' :: cs) = '\'' :: '\'' :: doubled cs :=
  replaceChar_cons_self

theorem isCaseless_quote : isCaseless '\'' = true := by
  decide

theorem not_mem_of_mem_lowerForms {c : Char} {ds : List Char} (hds : ds ∈ lowerForms c)
    (hc : c ≠ '\'') : '\'' ∉ ds := fun hmem =>
  hc (eq_of_mem_lowerForms hds hmem isCaseless_quote).1

theorem lowers_doubled {cs ls : List Char} (h : Lowers (doubled cs) ls) :
    ∃ ms, ls = doubled ms := by
  induction cs generalizing ls with
  | nil =>
    cases h
    exact ⟨[], rfl⟩
  | cons c cs ih =>
    by_cases hc : c = '\''
    · subst hc
      rw [doubled_quote, lowers_caseless_cons isCaseless_quote] at h
      obtain ⟨_, hquote, rfl⟩ := h
      obtain ⟨_, hcs, rfl⟩ := (lowers_caseless_cons isCaseless_quote).1 hquote
      obtain ⟨ms, rfl⟩ := ih hcs
      exact ⟨'\'' :: ms, (doubled_quote ms).symm⟩
    · rw [doubled, replaceChar_cons_of_ne hc] at h
      obtain ⟨ds, _, hds, hcs, rfl⟩ := lowers_cons_iff.1 h
      obtain ⟨ms, rfl⟩ := ih hcs
      exact ⟨ds ++ ms, (doubled_append (not_mem_of_mem_lowerForms hds hc) ms).symm⟩

theorem exists_of_doubled {cs ms ls : List Char} (hcs : '\'' ∉ cs) (h : doubled ms = cs ++ ls) :
    ∃ ns, ms = cs ++ ns ∧ doubled ns = ls := by
  induction cs generalizing ms with
  | nil => exact ⟨ms, rfl, h⟩
  | cons c cs ih =>
    obtain ⟨hc, hrest⟩ := not_or.1 (mt List.mem_cons.2 hcs)
    cases ms with
    | nil => cases h
    | cons m ms =>
      by_cases hm : m = '\''
      · subst hm
        rw [doubled_quote, List.cons_append] at h
        exact absurd (List.cons.inj h).1 hc
      · rw [doubled, replaceChar_cons_of_ne hm] at h
        obtain ⟨rfl, hms⟩ := List.cons.inj h
        obtain ⟨ns, rfl, hns⟩ := ih hrest hms
        exact ⟨ns, rfl, hns⟩

/-- What is written twice in the lower case is written twice in the text. The
induction takes two quotes at a time, and any other character alone. -/
theorem eq_doubled_of_lowers {cs ms : List Char} (h : Lowers cs (doubled ms)) :
    ∃ ds, cs = doubled ds := by
  induction hn : cs.length using Nat.strongRecOn generalizing cs ms with
  | _ n ih =>
    cases cs with
    | nil => exact ⟨[], rfl⟩
    | cons c cs =>
      by_cases hc : c = '\''
      · subst hc
        obtain ⟨ls, hcs, hms⟩ := (lowers_caseless_cons isCaseless_quote).1 h
        obtain ⟨ns, rfl, rfl⟩ : ∃ ns, ms = '\'' :: ns ∧ ls = '\'' :: doubled ns := by
          cases ms with
          | nil => cases hms
          | cons m ms =>
            by_cases hm : m = '\''
            · subst hm
              rw [doubled_quote] at hms
              exact ⟨ms, rfl, (List.cons.inj hms).2.symm⟩
            · rw [doubled, replaceChar_cons_of_ne hm] at hms
              exact absurd (List.cons.inj hms).1 hm
        obtain ⟨ys, rfl, hys⟩ := hcs.split_cons isCaseless_quote
        obtain ⟨ds, rfl⟩ := ih ys.length (by simp at hn; omega) hys rfl
        exact ⟨'\'' :: ds, (doubled_quote ds).symm⟩
      · obtain ⟨ds, ls, hds, hcs, hms⟩ := lowers_cons_iff.1 h
        obtain ⟨ns, rfl, rfl⟩ := exists_of_doubled (not_mem_of_mem_lowerForms hds hc) hms
        obtain ⟨es, rfl⟩ := ih cs.length (by simp at hn; omega) hcs rfl
        exact ⟨c :: es, (replaceChar_cons_of_ne hc).symm⟩

theorem isValue_of_lowers {cs ls : List Char} (h : Lowers cs ls) (hcs : IsValue cs) :
    IsValue ls := by
  cases hcs with
  | quoted ds =>
    obtain ⟨_, hbody, rfl⟩ := (lowers_caseless_cons isCaseless_quote).1 h
    obtain ⟨_, _, hds, hquote, rfl⟩ := lowers_append_iff.1 hbody
    obtain ⟨ms, rfl⟩ := lowers_doubled hds
    obtain ⟨_, hnil, rfl⟩ := (lowers_caseless_cons isCaseless_quote).1 hquote
    cases hnil
    exact .quoted ms
  | bare hquote hcomma =>
    exact .bare (mt (h.mem_iff isCaseless_quote).1 hquote) (mt (h.mem_iff (by decide)).1 hcomma)

theorem isValue_of_isValue_lower {cs ls : List Char} (h : Lowers cs ls) (hls : IsValue ls) :
    IsValue cs := by
  cases hls with
  | quoted ms =>
    obtain ⟨ys, rfl, hys⟩ := h.split_cons isCaseless_quote
    obtain ⟨ds, ns, rfl, hds, hns⟩ := Lowers.split isCaseless_quote hys
    obtain rfl := hns.eq_nil
    obtain ⟨es, rfl⟩ := eq_doubled_of_lowers hds
    exact .quoted es
  | bare hquote hcomma =>
    exact .bare (mt (h.mem_iff isCaseless_quote).2 hquote) (mt (h.mem_iff (by decide)).2 hcomma)

/-- Names and values of which the second has the first's in lower case. -/
def LowersBoth (a b : List Char × List Char) : Prop :=
  Lowers a.1 b.1 ∧ Lowers a.2 b.2

theorem joined_singleton (a : List Char × List Char) : joined [a] = a.1 ++ '=' :: a.2 := by
  simp [joined]

theorem isCaseless_equals : isCaseless '=' = true := by
  decide

theorem isCaseless_comma : isCaseless ',' = true := by
  decide

/-- The lower case of arguments is that of their names and values, joined. -/
theorem lowers_joined {args : List (List Char × List Char)} {ls : List Char}
    (h : Lowers (joined args) ls) :
    ∃ lower, ls = joined lower ∧ List.Forall₂ LowersBoth args lower := by
  induction args generalizing ls with
  | nil =>
    cases h
    exact ⟨[], rfl, .nil⟩
  | cons a args ih =>
    cases args with
    | nil =>
      rw [joined_singleton, lowers_append_iff] at h
      obtain ⟨name, _, hname, hequals, rfl⟩ := h
      obtain ⟨value, hvalue, rfl⟩ := (lowers_caseless_cons isCaseless_equals).1 hequals
      exact ⟨[(name, value)], (joined_singleton (name, value)).symm, .cons ⟨hname, hvalue⟩ .nil⟩
    | cons b args =>
      rw [joined_cons, lowers_append_iff] at h
      obtain ⟨name, _, hname, hequals, rfl⟩ := h
      obtain ⟨_, hrest, rfl⟩ := (lowers_caseless_cons isCaseless_equals).1 hequals
      obtain ⟨value, _, hvalue, hcomma, rfl⟩ := lowers_append_iff.1 hrest
      obtain ⟨_, hmore, rfl⟩ := (lowers_caseless_cons isCaseless_comma).1 hcomma
      obtain ⟨lower, rfl, hlower⟩ := ih hmore
      cases hlower with
      | @cons _ c _ lower hb hlower =>
        exact ⟨(name, value) :: c :: lower, (joined_cons (name, value) ..).symm,
          .cons ⟨hname, hvalue⟩ (.cons hb hlower)⟩

/-- What has joined arguments as its lower case is joined arguments. -/
theorem exists_of_lowers_joined {lower : List (List Char × List Char)} {cs : List Char}
    (h : Lowers cs (joined lower)) :
    ∃ args, cs = joined args ∧ List.Forall₂ LowersBoth args lower := by
  induction lower generalizing cs with
  | nil =>
    obtain rfl := h.eq_nil
    exact ⟨[], rfl, .nil⟩
  | cons a lower ih =>
    cases lower with
    | nil =>
      rw [joined_singleton] at h
      obtain ⟨name, value, rfl, hname, hvalue⟩ := h.split isCaseless_equals
      exact ⟨[(name, value)], (joined_singleton (name, value)).symm, .cons ⟨hname, hvalue⟩ .nil⟩
    | cons b lower =>
      rw [joined_cons] at h
      obtain ⟨name, rest, rfl, hname, hrest⟩ := h.split isCaseless_equals
      obtain ⟨value, more, rfl, hvalue, hmore⟩ := hrest.split isCaseless_comma
      obtain ⟨args, rfl, hargs⟩ := ih hmore
      cases hargs with
      | @cons c _ args _ hb hargs =>
        exact ⟨(name, value) :: c :: args, (joined_cons (name, value) ..).symm,
          .cons ⟨hname, hvalue⟩ (.cons hb hargs)⟩

theorem mem_of_lowers {c : Char} {cs ls : List Char} (h : Lowers cs ls) (hc : c ∈ cs) :
    ∃ ds ∈ lowerForms c, ∀ d ∈ ds, d ∈ ls := by
  induction h with
  | nil => simp at hc
  | @cons e ds cs ls hds _ ih =>
    rcases List.mem_cons.1 hc with rfl | hc
    · exact ⟨ds, hds, fun d hd => List.mem_append_left _ hd⟩
    · obtain ⟨fs, hfs, hall⟩ := ih hc
      exact ⟨fs, hfs, fun d hd => List.mem_append_right _ (hall d hd)⟩

/-- A word of ASCII. -/
def IsAsciiWord (cs : List Char) : Prop :=
  ∀ c ∈ cs, Text.isWord c = true ∧ c.toNat < 128

theorem isAsciiWord_lower {cs ls : List Char} (h : Lowers cs ls) (hcs : IsAsciiWord cs) :
    IsAsciiWord ls := by
  have hall : ∀ n < 128, Text.isWord (Char.ofNat n) = true →
      Text.isWord (Char.ofNat n).toLower = true ∧ (Char.ofNat n).toLower.toNat < 128 := by
    decide +kernel
  induction h with
  | nil => exact hcs
  | @cons c ds cs ls hds _ ih =>
    obtain ⟨hc, hrest⟩ := List.forall_mem_cons.1 hcs
    refine List.forall_mem_append.2 ⟨?_, ih hrest⟩
    rw [lowerForms_of_ascii hc.2, List.mem_singleton] at hds
    rw [hds, List.forall_mem_singleton]
    exact of_ascii (P := fun c => Text.isWord c = true →
      Text.isWord c.toLower = true ∧ c.toLower.toNat < 128) hall hc.2 hc.1

/-- **A name whose lower case is a word of ASCII is a word**, and that is its
lower case. -/
theorem isWord_of_lowers {cs ls : List Char} (h : Lowers cs ls) (hls : IsAsciiWord ls) :
    (∀ c ∈ cs, Text.isWord c = true) ∧ ls = lowerChars cs := by
  refine ⟨fun c hc => ?_, h.eq_lowerChars fun hsigma => ?_⟩
  · obtain ⟨ds, hds, hmem⟩ := mem_of_lowers h hc
    exact isWord_of_mem_lowerForms hds fun d hd => hls d (hmem d hd)
  · obtain ⟨ds, hds, hmem⟩ := mem_of_lowers h hsigma
    rcases mem_lowerForms hds with ⟨-, rfl | rfl⟩ | ⟨hne, -⟩
    · exact absurd (hls 'σ' (hmem 'σ' List.mem_cons_self)).2 (by decide)
    · exact absurd (hls 'ς' (hmem 'ς' List.mem_cons_self)).2 (by decide)
    · exact absurd rfl hne

/-- What has the lower case of an argument is an argument, whose name has the
same lower case. -/
theorem isArgument_of_lowersBoth {a : Argument} {p low : List Char × List Char}
    (ha : LowersBoth (a.name.toList, a.value.chars) low) (hp : LowersBoth p low) :
    IsArgument p.1 p.2 ∧ lowerChars p.1 = lowerChars a.name.toList := by
  have hlow : IsAsciiWord low.1 := isAsciiWord_lower ha.1 a.ascii
  obtain ⟨hword, hname⟩ := isWord_of_lowers hp.1 hlow
  obtain ⟨-, hname'⟩ := isWord_of_lowers ha.1 hlow
  refine ⟨⟨?_, hword, ?_⟩, hname.symm.trans hname'⟩
  · intro hempty
    have hnil : low.1 = [] := lowers_nil_iff.1 (hempty ▸ hp.1)
    have hnone : a.name.toList = [] := Lowers.eq_nil (hnil ▸ ha.1)
    exact a.named (String.toList_eq_nil_iff.1 hnone)
  · exact isValue_of_isValue_lower hp.2 (isValue_of_lowers ha.2 (isArgument a).isValue)

theorem forall₂_isArgument {as : List Argument} {args low : List (List Char × List Char)}
    (has : List.Forall₂ LowersBoth (as.map fun a => (a.name.toList, a.value.chars)) low)
    (hargs : List.Forall₂ LowersBoth args low) :
    (∀ p ∈ args, IsArgument p.1 p.2) ∧
      (args.map fun p => lowerChars p.1) = as.map fun a => lowerChars a.name.toList := by
  induction hargs generalizing as with
  | nil =>
    cases as with
    | nil => simp
    | cons a as => cases has
  | cons hp _ ih =>
    cases as with
    | nil => cases has
    | cons a as =>
      obtain ⟨ha, has⟩ := List.forall₂_cons.1 has
      obtain ⟨hargument, hname⟩ := isArgument_of_lowersBoth ha hp
      obtain ⟨hmore, hnames⟩ := ih has
      exact ⟨List.forall_mem_cons.2 ⟨hargument, hmore⟩, by simp [hname, hnames]⟩

/-- Two texts with a lower-case form in common. -/
def Alike (cs ds : List Char) : Prop :=
  ∃ ls, Lowers cs ls ∧ Lowers ds ls

/-- **A segment with the same lower case is the same call**, up to the letter
case of its name and of those of its arguments. -/
theorem parts_of_sameLetters (h : sameLetters segment t.text = true) :
    hasChar '(' segment = true ∧ hasEnd ")" segment = true ∧
      Alike (ofSegment segment).name.toList t.name.toList ∧
      (Entries.keys (ofSegment segment).arguments).map lower =
        t.arguments.map fun a => lower a.name := by
  have hlower : lowerChars segment.toList = lowerChars t.text.toList :=
    String.ofList_inj.1 (eq_of_beq h)
  have hsegment := lowers_lowerChars segment.toList
  have htoken := lowers_lowerChars t.text.toList
  rw [hlower] at hsegment
  generalize lowerChars t.text.toList = ls at hsegment htoken
  have hopen : isCaseless '(' = true := by decide
  have hclose : isCaseless ')' = true := by decide
  -- the lower case has the parts of the token, and the segment has those parts
  rw [toList_text, lowers_append_iff] at htoken
  obtain ⟨name, _, hname, htail, rfl⟩ := htoken
  obtain ⟨_, hrest, rfl⟩ := (lowers_caseless_cons hopen).1 htail
  obtain ⟨_, _, hjoined, hend, rfl⟩ := lowers_append_iff.1 hrest
  obtain ⟨_, hnil, rfl⟩ := (lowers_caseless_cons hclose).1 hend
  obtain rfl := lowers_nil_iff.1 hnil
  obtain ⟨low, rfl, hlow⟩ := lowers_joined hjoined
  obtain ⟨first, _, htext, hfirst, htail'⟩ := hsegment.split hopen
  obtain ⟨_, _, rfl, hinner, hend'⟩ := htail'.split hclose
  obtain rfl := hend'.eq_nil
  obtain ⟨args, rfl, hargs⟩ := exists_of_lowers_joined hinner
  obtain ⟨hall, hnames⟩ := forall₂_isArgument hlow hargs
  have hfree : '(' ∉ first := by
    rw [← hfirst.mem_iff hopen, hname.mem_iff hopen]
    exact t.opens
  have hdistinct : (args.map Prod.fst).Nodup := by
    have hlowers : (t.arguments.map fun a => lowerChars a.name.toList).Nodup := by
      refine List.Nodup.of_map String.ofList ?_
      simpa [Function.comp_def, lower] using t.distinct
    rw [← hnames] at hlowers
    refine List.Nodup.of_map lowerChars ?_
    simpa [Function.comp_def] using hlowers
  have hkeys := congrArg (List.map String.ofList) hnames
  have hsuffix : [')'] <:+ segment.toList := ⟨first ++ '(' :: joined args, by simp [htext]⟩
  refine ⟨by simp [hasChar, htext], List.isSuffixOf_iff_suffix.2 hsuffix, ?_⟩
  rw [ofSegment, htext, ofChars_joined hfree hall hdistinct]
  exact ⟨⟨name, by simpa using hfirst, hname⟩,
    by simpa [Entries.keys, Function.comp_def, lower] using hkeys⟩

end Token

end Call

end ApiSnippets
