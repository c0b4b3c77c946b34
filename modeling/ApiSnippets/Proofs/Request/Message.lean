import ApiSnippets.Proofs.Outcome
import ApiSnippets.Proofs.Text.Case
import ApiSnippets.Proofs.Text.Tokens
import ApiSnippets.Request.Http
/-!
# Messages, read back

The text of a message as a client writes it: a request line, one line per
header, an empty line and the body. What is read of such a text is what was
written, whatever stands in the values of the headers and in the body, whichever
line ends the head has, and with blanks and byte order marks in front
(`HttpRequest.parse_reads_back`). Of any other text a request is read, or it is
refused with a fault of usage.
-/

namespace ApiSnippets

/-! ## Messages -/

/-- What a message says: the method and the target of its request line, its
headers, and the text of its body when it has one. -/
structure Message where
  method : String
  target : String
  headers : List Header := []
  body : Option String := none

/-- That a text stands on one line, without blanks at either end. -/
structure IsField (s : String) : Prop where
  stripped : Text.stripped s = s
  line : '\n' ∉ s.toList

namespace Message

variable {m : Message} {method : Method} {front lineEnd : String}

/-- The lines above the empty line. -/
def head (m : Message) : List String :=
  (m.method ++ " " ++ m.target ++ " HTTP/1.1") ::
    m.headers.map fun h => h.name ++ ": " ++ h.value

/-- The text of a message whose head has these line ends. -/
def text (lineEnd : String) (m : Message) : String :=
  String.join (m.head.map (· ++ lineEnd)) ++ lineEnd ++ m.body.getD ""

/-- A message that can be read back. The method is written in any case, and
nothing in the head can be taken for the end of its line. -/
structure Regular (m : Message) (method : Method) : Prop where
  method : Text.sameLetters m.method method.name = true
  target_ne_empty : m.target ≠ ""
  target : ∀ c ∈ m.target.toList, Text.isBlank c = false
  names : ∀ h ∈ m.headers, IsField h.name ∧ h.name ≠ "" ∧ ':' ∉ h.name.toList
  values : ∀ h ∈ m.headers, IsField h.value
  body_not_blank : ∀ b ∈ m.body, Text.isBlankText b.toList = false
  /-- Only a line feed that nothing stands in front of is a line end of the body. -/
  body_breaks : ∀ b ∈ m.body, ¬ ['\r', '\n'] <:+: b.toList
  body_ends : ∀ b ∈ m.body, b.toList.head? ≠ some '\n' ∧ b.toList.getLast? ≠ some '\n'

/-- That a target begins with a scheme, in any case. -/
def HasScheme (target : String) : Prop :=
  ∃ scheme rest, target = scheme ++ rest ∧
    (Text.sameLetters scheme "http://" = true ∨ Text.sameLetters scheme "https://" = true)

/-- The host a message is sent to: that of the first header called so. -/
def host (m : Message) : String :=
  ((m.headers.find? fun h => Text.sameLetters h.name "Host").map (·.value)).getD
    "graph.microsoft.com"

/-- What may stand in front of a message. -/
def IsFront (front : String) : Prop :=
  ∀ c ∈ front.toList, c ∈ ['\uFEFF', ' ', '\t', '\n']

/-! ## Lines -/

/-- The lines of a message, each with its end, and what follows them. -/
def written (lineEnd : List Char) (lines : List (List Char)) (rest : List Char) : List Char :=
  lines.flatMap (· ++ lineEnd) ++ rest

theorem written_cons {lineEnd line rest : List Char} {lines : List (List Char)} :
    written lineEnd (line :: lines) rest = line ++ (lineEnd ++ written lineEnd lines rest) := by
  simp [written]

/-- A line that ends with itself: it holds no line feed, and does not take the
carriage return of its own end. -/
structure IsLine (line : List Char) : Prop where
  feed : '\n' ∉ line
  returns : line.getLast? ≠ some '\r'

/-- **Both line ends become line feeds**, and nothing else is changed in lines. -/
theorem replacePair_written {e rest : List Char} {lines : List (List Char)}
    (he : e ∈ [['\n'], ['\r', '\n']]) (hlines : ∀ line ∈ lines, IsLine line) :
    Text.replacePair '\r' '\n' ['\n'] (written e lines rest) =
      written ['\n'] lines (Text.replacePair '\r' '\n' ['\n'] rest) := by
  induction lines with
  | nil => rfl
  | cons line lines ih =>
    obtain ⟨hline, hlines⟩ := List.forall_mem_cons.1 hlines
    rw [written_cons, written_cons, ← ih hlines]
    rcases List.mem_pair.1 he with rfl | rfl
    · rw [Text.replacePair_append hline.feed fun h => absurd h hline.returns,
        List.singleton_append, Text.replacePair_cons_of_ne (by decide)]
      rfl
    · rw [Text.replacePair_append hline.feed fun _ => by simp]
      simp [Text.replacePair]

/-- What is cut at its first empty line is not cut within a line. -/
theorem cutAtBlankLine_append {line rest : List Char} (h : '\n' ∉ line) :
    HttpRequest.cutAtBlankLine (line ++ rest) =
      (line ++ (HttpRequest.cutAtBlankLine rest).1, (HttpRequest.cutAtBlankLine rest).2) := by
  induction line with
  | nil => rfl
  | cons c line ih =>
    obtain ⟨hc, hline⟩ := not_or.1 (mt List.mem_cons.2 h)
    rw [List.cons_append, HttpRequest.cutAtBlankLine, ih hline]
    · rfl
    · rintro _ rfl
      exact absurd rfl hc

/-- **The head ends at the empty line**, when none of its own lines is empty. -/
theorem cutAtBlankLine_written {line rest : List Char} {lines : List (List Char)}
    (hlines : ∀ l ∈ line :: lines, l ≠ [] ∧ '\n' ∉ l) :
    HttpRequest.cutAtBlankLine (written ['\n'] (line :: lines) ('\n' :: rest)) =
      (List.intercalate ['\n'] (line :: lines), some rest) := by
  induction lines generalizing line with
  | nil =>
    have hline := (hlines line List.mem_cons_self).2
    rw [written_cons, cutAtBlankLine_append hline]
    simp [written, HttpRequest.cutAtBlankLine, List.intercalate]
  | cons next lines ih =>
    obtain ⟨⟨-, hline⟩, hmore⟩ := List.forall_mem_cons.1 hlines
    obtain ⟨hne, hfeed⟩ := hmore next List.mem_cons_self
    obtain ⟨c, cs, rfl⟩ := List.exists_cons_of_ne_nil hne
    have hc : c ≠ '\n' := fun h => hfeed (h ▸ List.mem_cons_self)
    -- the line feed that ends this line is not followed by another one
    have hstep : HttpRequest.cutAtBlankLine ('\n' :: written ['\n'] ((c :: cs) :: lines)
        ('\n' :: rest)) = ('\n' :: List.intercalate ['\n'] ((c :: cs) :: lines), some rest) := by
      rw [HttpRequest.cutAtBlankLine, ih hmore]
      intro _ _ h
      rw [written_cons, List.cons_append] at h
      exact hc (List.cons.inj h).1
    rw [written_cons, cutAtBlankLine_append hline, List.singleton_append, hstep]
    simp [List.intercalate]

/-! ## The request line -/

/-- What becomes letters of ASCII in lower case is no blank. -/
theorem isBlank_of_mem_lowerForms {c : Char} {ds : List Char} (hds : ds ∈ Text.lowerForms c)
    (hletters : ∀ d ∈ ds, Text.isAsciiLetter d = true) :
    Text.isBlank c = false ∧ c ≠ '\uFEFF' := by
  obtain ⟨d, more, rfl⟩ := List.exists_cons_of_ne_nil (Text.ne_nil_of_mem_lowerForms hds)
  have hd := hletters d List.mem_cons_self
  have hbounds : d.toNat < 128 ∧ d.toNat ≠ 0 := by
    simp only [Text.isAsciiLetter, Bool.or_eq_true, Bool.and_eq_true, decide_eq_true_eq,
      Char.le_def, UInt32.le_iff_toNat_le] at hd
    simp only [Char.toNat]
    have hvalues : 'a'.val.toNat = 97 ∧ 'z'.val.toNat = 122 ∧ 'A'.val.toNat = 65 ∧
        'Z'.val.toNat = 90 := by decide
    omega
  rcases Text.eq_lowerChar_of_ascii hds List.mem_cons_self hbounds.1 hbounds.2 with
    ⟨hlower, hc⟩ | hi | ⟨hc, -⟩
  · have hall : ∀ n < 128, Text.isAsciiLetter (Char.ofNat n).toLower = true →
        Text.isBlank (Char.ofNat n) = false ∧ Char.ofNat n ≠ '\uFEFF' := by decide +kernel
    rw [Text.lowerChar_of_ascii hc] at hlower
    obtain ⟨rfl, -⟩ := List.cons.inj hlower
    exact Text.of_ascii (P := fun c => Text.isAsciiLetter c.toLower = true →
      Text.isBlank c = false ∧ c ≠ '\uFEFF') hall hc hd
  · have hdot := hletters (Char.ofNat 0x307) (hi ▸ by simp)
    exact absurd hdot (by decide)
  · rw [← Char.ofNat_toNat c, hc]
    decide +kernel

/-- The name of a method, in any case, holds no blank and does not begin like
what may stand in front of a message. -/
theorem isBlank_of_sameLetters {token : String}
    (h : Text.sameLetters token method.name = true) :
    token.toList ≠ [] ∧ ∀ c ∈ token.toList, Text.isBlank c = false ∧ c ≠ '\uFEFF' := by
  have hlowers : Text.Lowers token.toList method.name.toList := by
    have hname : Text.lowerChars token.toList = Text.lowerChars method.name.toList := by
      simpa [Text.sameLetters, Text.lower, String.ofList_inj] using h
    have hlower : Text.lowerChars method.name.toList = method.name.toList := by
      cases method <;> decide +kernel
    rw [← hlower, ← hname]
    exact Text.lowers_lowerChars token.toList
  have hletters : method.name.toList ≠ [] ∧
      ∀ d ∈ method.name.toList, Text.isAsciiLetter d = true := by
    cases method <;> exact ⟨by decide, Text.forall_of_all (by decide)⟩
  generalize method.name.toList = ls at hlowers hletters
  generalize token.toList = cs at hlowers
  refine ⟨?_, ?_⟩
  · rintro rfl
    exact hletters.1 (Text.lowers_nil_iff.1 hlowers)
  · replace hletters := hletters.2
    induction hlowers with
    | nil => simp
    | @cons c ds cs ls hds _ ih =>
      obtain ⟨hform, hrest⟩ := List.forall_mem_append.1 hletters
      exact List.forall_mem_cons.2 ⟨isBlank_of_mem_lowerForms hds hform, ih hrest⟩

/-- **The request line is read back**: its method in any case, and its target. -/
theorem requestLine_written (h : m.Regular method) :
    HttpRequest.requestLine (m.method ++ " " ++ m.target ++ " HTTP/1.1").toList =
      .ok (method, m.target.toList) := by
  obtain ⟨hne, hmethod⟩ := isBlank_of_sameLetters h.method
  have htarget : m.target.toList ≠ [] := mt String.toList_eq_nil_iff.1 h.target_ne_empty
  have hline : (m.method ++ " " ++ m.target ++ " HTTP/1.1").toList =
      m.method.toList ++ ' ' :: (m.target.toList ++ ' ' :: "HTTP/1.1".toList) := by
    simp only [String.toList_append, List.append_assoc]
    rfl
  have hfields : Text.blankFields (m.method ++ " " ++ m.target ++ " HTTP/1.1").toList =
      [m.method.toList, m.target.toList, "HTTP/1.1".toList] := by
    have hblank : Text.isBlank ' ' = true := by decide
    have hversion : ∀ c ∈ "HTTP/1.1".toList, Text.isBlank c = false :=
      Text.forall_of_all (by decide)
    rw [hline, Text.blankFields, Text.fields_run (fun c hc => (hmethod c hc).1) hne hblank,
      Text.fields_run h.target htarget hblank, Text.fields_of_run hversion (by decide)]
  have hlower : Text.lower m.method = method.name := by
    have hsame : Text.lower m.method = Text.lower method.name := by
      simpa [Text.sameLetters] using h.method
    rw [hsame]
    cases method <;> decide +kernel
  have hname : Method.ofName? method.name = some method := by cases method <;> rfl
  rw [HttpRequest.requestLine, hfields]
  simp [hlower, hname]

/-! ## Headers -/

/-- **A header is read back**, whatever stands in its value. -/
theorem headerLine_written {h : Header} (hname : IsField h.name ∧ h.name ≠ "" ∧
    ':' ∉ h.name.toList) (hvalue : IsField h.value) :
    HttpRequest.headerLine (h.name ++ ": " ++ h.value).toList = .ok (some h) := by
  obtain ⟨hfield, hne, hcolon⟩ := hname
  have hstrip : Text.strip h.name.toList = h.name.toList := by
    have hchars := congrArg String.toList hfield.stripped
    rwa [Text.stripped, String.toList_ofList] at hchars
  have hstrip' : Text.strip (' ' :: h.value.toList) = h.value.toList := by
    have hchars := congrArg String.toList hvalue.stripped
    rw [Text.stripped, String.toList_ofList] at hchars
    rw [Text.strip, ← Text.trim_dropWhile, List.dropWhile_cons_of_pos (by decide),
      Text.trim_dropWhile]
    exact hchars
  have hnotblank : Text.isBlankText h.name.toList = false :=
    Text.isBlankText_of_strip hstrip (mt String.toList_eq_nil_iff.1 hne)
  have hline : (h.name ++ ": " ++ h.value).toList =
      h.name.toList ++ ':' :: ' ' :: h.value.toList := by
    simp only [String.toList_append, List.append_assoc]
    rfl
  have hlineblank : Text.isBlankText (h.name ++ ": " ++ h.value).toList = false := by
    rw [hline, Text.isBlankText, List.all_append, ← Text.isBlankText, hnotblank, Bool.false_and]
  rw [HttpRequest.headerLine, hlineblank, hline, Text.cutAt_append hcolon]
  simp [hnotblank, hstrip, hstrip']

theorem headerLines_written {hs : List Header}
    (hnames : ∀ h ∈ hs, IsField h.name ∧ h.name ≠ "" ∧ ':' ∉ h.name.toList)
    (hvalues : ∀ h ∈ hs, IsField h.value) :
    HttpRequest.headerLines (hs.map fun h => (h.name ++ ": " ++ h.value).toList) = .ok hs := by
  induction hs with
  | nil => rfl
  | cons h hs ih =>
    obtain ⟨hname, hnames⟩ := List.forall_mem_cons.1 hnames
    obtain ⟨hvalue, hvalues⟩ := List.forall_mem_cons.1 hvalues
    rw [List.map_cons, HttpRequest.headerLines, headerLine_written hname hvalue,
      ih hnames hvalues]
    rfl

/-! ## Targets -/

/-- A lower case that is all ASCII is not that of a capital sigma. -/
theorem sigma_not_mem_of_lowers {cs ls : List Char} (h : Text.Lowers cs ls)
    (hls : ∀ d ∈ ls, d.toNat < 128) : 'Σ' ∉ cs := by
  intro hsigma
  induction h with
  | nil => cases hsigma
  | @cons c ds cs ls hds _ ih =>
    obtain ⟨hform, hrest⟩ := List.forall_mem_append.1 hls
    rcases List.mem_cons.1 hsigma with rfl | hsigma
    · rcases Text.mem_lowerForms hds with ⟨-, rfl | rfl⟩ | ⟨hne, -⟩
      · exact absurd (hform 'σ' List.mem_cons_self) (by decide)
      · exact absurd (hform 'ς' List.mem_cons_self) (by decide)
      · exact hne rfl
    · exact ih hrest hsigma

/-- **A text begins with a scheme when its lower case does**: no other
characters become those of the scheme, and what follows it changes nothing. -/
theorem isPrefixOf_lowerChars_iff {name cs : List Char} (hname : ∀ d ∈ name, d.toNat < 128) :
    (name ++ ':' :: ['/', '/']).isPrefixOf (Text.lowerChars cs) = true ↔
      ∃ scheme rest, cs = scheme ++ rest ∧ Text.lowerChars scheme = name ++ ':' :: ['/', '/'] := by
  have hascii : ∀ d ∈ name ++ ':' :: ['/', '/'], d.toNat < 128 :=
    List.forall_mem_append.2 ⟨hname, Text.forall_of_all (by decide)⟩
  rw [List.isPrefixOf_iff_prefix]
  constructor
  · rintro ⟨more, hmore⟩
    have hlowers : Text.Lowers cs (name ++ ':' :: '/' :: '/' :: more) := by
      have hlower := Text.lowers_lowerChars cs
      rw [← hmore] at hlower
      simpa using hlower
    obtain ⟨xs, ys, rfl, hxs, hys⟩ := hlowers.split (by decide)
    obtain ⟨ys', rfl, hys'⟩ := hys.split_cons (by decide)
    obtain ⟨zs, rfl, -⟩ := hys'.split_cons (by decide)
    have hscheme : Text.Lowers (xs ++ ':' :: ['/', '/']) (name ++ ':' :: ['/', '/']) :=
      Text.lowers_append_iff.2 ⟨name, _, hxs, Text.lowers_lowerChars _, rfl⟩
    have hsigma := sigma_not_mem_of_lowers hscheme hascii
    exact ⟨xs ++ ':' :: ['/', '/'], zs, by simp, (hscheme.eq_lowerChars hsigma).symm⟩
  · rintro ⟨scheme, rest, rfl, hscheme⟩
    obtain ⟨ms, ns, hms, -, hlower⟩ := Text.lowers_append_iff.1
      (Text.lowers_lowerChars (scheme ++ rest))
    have hsigma : 'Σ' ∉ scheme :=
      sigma_not_mem_of_lowers (Text.lowers_lowerChars scheme) (hscheme ▸ hascii)
    rw [hlower, hms.eq_lowerChars hsigma, hscheme]
    exact List.prefix_append _ _

/-- The same for texts: what stands in front is the scheme in any letter case. -/
theorem isPrefixOf_scheme_iff {name : String} (target : String)
    (hname : ∀ d ∈ name.toList, d.toNat < 128)
    (hlower : Text.lower (name ++ "://") = name ++ "://") :
    (name ++ "://").toList.isPrefixOf (Text.lowerChars target.toList) = true ↔
      ∃ scheme rest, target = scheme ++ rest ∧
        Text.sameLetters scheme (name ++ "://") = true := by
  have hchars : (name ++ "://").toList = name.toList ++ ':' :: ['/', '/'] := by
    rw [String.toList_append]
    rfl
  rw [hchars, isPrefixOf_lowerChars_iff hname]
  constructor
  · rintro ⟨scheme, rest, htarget, hscheme⟩
    refine ⟨String.ofList scheme, String.ofList rest, ?_, ?_⟩
    · rw [← String.toList_inj, htarget]
      simp
    · rw [Text.sameLetters, hlower, beq_iff_eq, Text.lower, String.toList_ofList, hscheme,
        ← hchars, String.ofList_toList]
  · rintro ⟨scheme, rest, rfl, hscheme⟩
    refine ⟨scheme.toList, rest.toList, String.toList_append, ?_⟩
    rw [Text.sameLetters, hlower, beq_iff_eq] at hscheme
    rw [← hchars, ← hscheme, Text.lower, String.toList_ofList]

/-- A target is a full address when it begins with a scheme. -/
theorem isAbsolute_iff {target : String} :
    HttpRequest.isAbsolute target.toList = true ↔ HasScheme target := by
  have hhttp := isPrefixOf_scheme_iff target (Text.forall_of_all (by decide))
    (by decide +kernel : Text.lower ("http" ++ "://") = "http" ++ "://")
  have hhttps := isPrefixOf_scheme_iff target (Text.forall_of_all (by decide))
    (by decide +kernel : Text.lower ("https" ++ "://") = "https" ++ "://")
  have hcases : HttpRequest.isAbsolute target.toList = true ↔
      ("http" ++ "://").toList.isPrefixOf (Text.lowerChars target.toList) = true ∨
        ("https" ++ "://").toList.isPrefixOf (Text.lowerChars target.toList) = true :=
    Bool.or_eq_true _ _ ▸ Iff.rfl
  rw [hcases, hhttp, hhttps]
  constructor
  · rintro (⟨scheme, rest, htarget, hscheme⟩ | ⟨scheme, rest, htarget, hscheme⟩)
    · exact ⟨scheme, rest, htarget, .inl hscheme⟩
    · exact ⟨scheme, rest, htarget, .inr hscheme⟩
  · rintro ⟨scheme, rest, htarget, hscheme | hscheme⟩
    · exact .inl ⟨scheme, rest, htarget, hscheme⟩
    · exact .inr ⟨scheme, rest, htarget, hscheme⟩

theorem urlOf_of_hasScheme {hs : List Header} {target : String} (h : HasScheme target) :
    HttpRequest.urlOf hs target.toList = target := by
  rw [HttpRequest.urlOf, if_pos (isAbsolute_iff.2 h), String.ofList_toList]

theorem urlOf_of_not_hasScheme (h : ¬ HasScheme m.target) :
    HttpRequest.urlOf m.headers m.target.toList = "https://" ++ m.host ++ "/" ++
      String.ofList (m.target.toList.dropWhile (· == '/')) := by
  have hname : Text.lower "Host" = "host" := by decide +kernel
  rw [HttpRequest.urlOf, if_neg (mt isAbsolute_iff.1 h), host]
  simp only [Text.sameLetters, hname]
  rfl

/-! ## Bodies -/

/-- **A body is read back**, its octets being those of its text. -/
theorem payload_written (h : m.Regular method) :
    HttpRequest.payload (some (m.body.getD "").toList) =
      m.body.map fun b => Utf8.encode b.toList := by
  cases hbody : m.body with
  | none => rfl
  | some b =>
    obtain ⟨hhead, hlast⟩ := h.body_ends b hbody
    have hends : ∀ o : Option Char, o ≠ some '\n' → ∀ c ∈ o, (c == '\n') = false := by
      rintro o ho c hc
      exact beq_eq_false_iff_ne.2 fun hfeed => ho (hfeed ▸ hc)
    have htrim : Text.trim (· == '\n') b.toList = b.toList :=
      Text.trim_of_ends (hends _ hhead) (hends _ hlast)
    have hblank : Text.isBlankText b.toList = false := h.body_not_blank b hbody
    simp [HttpRequest.payload, htrim, hblank]

/-! ## Whole messages -/

theorem isLine_head (h : m.Regular method) :
    ∀ line ∈ m.head, line.toList ≠ [] ∧ IsLine line.toList := by
  have hnotblank : ∀ {c : Char}, Text.isBlank c = false → c ≠ '\n' ∧ c ≠ '\r' := by
    rintro c hc
    constructor <;> rintro rfl <;> exact absurd hc (by decide)
  refine List.forall_mem_cons.2 ⟨?_, List.forall_mem_map.2 fun f hf => ?_⟩
  -- the request line ends in the digit of its version
  · have hmethod := (isBlank_of_sameLetters h.method).2
    have hfeed : '\n' ∉ (m.method ++ " " ++ m.target ++ " HTTP/1.1").toList := by
      have hleft : '\n' ∉ m.method.toList := fun hc => (hnotblank (hmethod _ hc).1).1 rfl
      have hright : '\n' ∉ m.target.toList := fun hc => (hnotblank (h.target _ hc)).1 rfl
      simp [String.toList_append, hleft, hright]
    have hlast : (m.method ++ " " ++ m.target ++ " HTTP/1.1").toList.getLast? = some '1' := by
      rw [String.toList_append, List.getLast?_append]
      rfl
    refine ⟨?_, hfeed, ?_⟩
    · intro hempty
      rw [hempty] at hlast
      cases hlast
    · rw [hlast]
      decide
  -- the line of a header ends in its value, which is stripped, or in the blank before it
  · obtain ⟨hname, -⟩ := h.names f hf
    have hvalue := h.values f hf
    have hstrip : Text.strip f.value.toList = f.value.toList := by
      have hchars := congrArg String.toList hvalue.stripped
      rwa [Text.stripped, String.toList_ofList] at hchars
    have hfeed : '\n' ∉ (f.name ++ ": " ++ f.value).toList := by
      simp [String.toList_append, hname.line, hvalue.line]
    refine ⟨by simp [String.toList_append], hfeed, ?_⟩
    intro hlast
    rw [String.toList_append, List.getLast?_append] at hlast
    cases hend : f.value.toList.getLast? with
    | none =>
      rw [hend, String.toList_append, List.getLast?_append] at hlast
      cases hlast
    | some c =>
      rw [hend] at hlast
      obtain rfl : c = '\r' := by simpa using hlast
      exact (hnotblank (Text.getLast?_of_trim hstrip hend)).2 rfl

theorem toList_text {m : Message} : (m.text lineEnd).toList =
    written lineEnd.toList (m.head.map String.toList ++ [[]]) (m.body.getD "").toList := by
  simp [text, written, String.toList_join, List.flatMap_map]

/-- Nothing but what stands in front of the message is dropped. -/
theorem normalize_text (h : m.Regular method) (hfront : IsFront front)
    (hend : lineEnd ∈ ["\n", "\r\n"]) :
    HttpRequest.normalize (front ++ m.text lineEnd).toList =
      written ['\n'] (m.head.map String.toList) ('\n' :: (m.body.getD "").toList) := by
  have he : lineEnd.toList ∈ [['\n'], ['\r', '\n']] := by
    rcases List.mem_pair.1 hend with rfl | rfl
    · exact List.mem_cons_self
    · exact List.mem_cons_of_mem _ List.mem_cons_self
  have hlines : ∀ line ∈ m.head.map String.toList ++ [[]], IsLine line := by
    refine List.forall_mem_append.2 ⟨List.forall_mem_map.2 fun l hl => (isLine_head h l hl).2, ?_⟩
    exact List.forall_mem_singleton.2 ⟨by simp, by simp⟩
  have hbody : Text.replacePair '\r' '\n' ['\n'] (m.body.getD "").toList =
      (m.body.getD "").toList := by
    cases hb : m.body with
    | none => rfl
    | some b => exact Text.replacePair_of_not_infix (h.body_breaks b hb)
  have hreturn : '\r' ∉ front.toList := fun hc => absurd (hfront _ hc) (by decide)
  -- the method begins with a letter, where the blanks in front of the message end
  obtain ⟨c, more, hc⟩ := List.exists_cons_of_ne_nil (isBlank_of_sameLetters h.method).1
  have hfirst := (isBlank_of_sameLetters h.method).2 c (hc ▸ List.mem_cons_self)
  have hstart : ∃ rest, written ['\n'] (m.head.map String.toList)
      ('\n' :: (m.body.getD "").toList) = c :: rest := by
    simp [head, written_cons, String.toList_append, hc]
  obtain ⟨rest, hrest⟩ := hstart
  rw [HttpRequest.normalize, String.toList_append, Text.replacePair_append_of_not_mem hreturn,
    toList_text, replacePair_written he hlines, hbody]
  have hsplit : written ['\n'] (m.head.map String.toList ++ [[]]) (m.body.getD "").toList =
      written ['\n'] (m.head.map String.toList) ('\n' :: (m.body.getD "").toList) := by
    simp [written]
  rw [hsplit, hrest, List.dropWhile_append_of_pos, List.dropWhile_cons_of_neg]
  · have hblanks : Text.isBlank ' ' = true ∧ Text.isBlank '\t' = true ∧
        Text.isBlank '\n' = true := by decide
    have hne : ∀ d, Text.isBlank d = true → c ≠ d := by
      rintro d hd rfl
      rw [hfirst.1] at hd
      cases hd
    simp [hfirst.2, hne _ hblanks.1, hne _ hblanks.2.1, hne _ hblanks.2.2]
  · intro d hd
    have hmem := hfront d hd
    simp only [List.mem_cons, List.not_mem_nil, or_false] at hmem
    rcases hmem with rfl | rfl | rfl | rfl <;> rfl

/-- **A message is read as it was written.** -/
theorem parse_text (h : m.Regular method) (hfront : IsFront front)
    (hend : lineEnd ∈ ["\n", "\r\n"]) :
    HttpRequest.parse (front ++ m.text lineEnd) =
      .ok ⟨method, HttpRequest.urlOf m.headers m.target.toList, m.headers,
        m.body.map fun b => Utf8.encode b.toList⟩ := by
  have hlines : ∀ l ∈ m.head.map String.toList, l ≠ [] ∧ '\n' ∉ l :=
    List.forall_mem_map.2 fun l hl => ⟨(isLine_head h l hl).1, (isLine_head h l hl).2.feed⟩
  have hnotblank :
      Text.isBlankText (m.method ++ " " ++ m.target ++ " HTTP/1.1").toList = false := by
    obtain ⟨c, more, hc⟩ := List.exists_cons_of_ne_nil (isBlank_of_sameLetters h.method).1
    have hfirst := (isBlank_of_sameLetters h.method).2 c (hc ▸ List.mem_cons_self)
    simp [String.toList_append, hc, Text.isBlankText, hfirst.1]
  have hheaders := headerLines_written h.names h.values
  have hmap : m.head.map String.toList = (m.method ++ " " ++ m.target ++ " HTTP/1.1").toList ::
      m.headers.map fun h => (h.name ++ ": " ++ h.value).toList := by
    simp only [head, List.map_cons, List.map_map, Function.comp_def]
  rw [hmap] at hlines
  rw [HttpRequest.parse, normalize_text h hfront hend, hmap]
  simp only [cutAtBlankLine_written hlines,
    Text.splitAll_joined (List.cons_ne_nil _ _) fun l hl => (hlines l hl).2, hnotblank,
    requestLine_written h, hheaders, payload_written h]
  rfl

end Message

/-! ## Any text at all -/

namespace HttpRequest

/-- That an outcome is a value or a fault of usage. -/
def Usable {α : Type} (x : Outcome α) : Prop :=
  (∃ a, x = .ok a) ∨ ∃ fault, x = .error (.usage fault)

theorem usable_ok {α : Type} (a : α) : Usable (.ok a : Outcome α) :=
  .inl ⟨a, rfl⟩

theorem usable_fault {α : Type} (fault : UsageFault) :
    Usable (.error (.usage fault) : Outcome α) :=
  .inr ⟨fault, rfl⟩

theorem Usable.bind {α β : Type} {x : Outcome α} {f : α → Outcome β} (hx : Usable x)
    (hf : ∀ a, Usable (f a)) : Usable (x >>= f) := by
  rcases hx with ⟨a, rfl⟩ | ⟨fault, rfl⟩
  · exact hf a
  · exact usable_fault fault

theorem usable_requestLine (line : List Char) : Usable (requestLine line) := by
  unfold requestLine
  split
  · split
    · exact usable_fault _
    · split
      · exact usable_ok _
      · exact usable_fault _
  · exact usable_fault _

theorem usable_headerLine (line : List Char) : Usable (headerLine line) := by
  unfold headerLine
  split
  · exact usable_ok _
  · split
    · split
      · exact usable_fault _
      · exact usable_ok _
    · exact usable_fault _

theorem usable_headerLines (lines : List (List Char)) : Usable (headerLines lines) := by
  induction lines with
  | nil => exact usable_ok _
  | cons line lines ih =>
    exact (usable_headerLine line).bind fun h => ih.bind fun hs => usable_ok _

theorem usable_parse (text : String) : Usable (parse text) := by
  unfold parse
  split
  split
  · exact usable_fault _
  · split
    · exact usable_fault _
    · exact (usable_requestLine _).bind fun line =>
        (usable_headerLines _).bind fun headers => usable_ok _

/-- A message with a colon in the value of a header, a header without a value,
and an empty line in its body. -/
def draftMessage : Message where
  method := "pOsT"
  target := "//v1.0/me/messages"
  headers := [⟨"X-Note", "a: \"b:c\""⟩, ⟨"Empty", ""⟩, ⟨"HOST", "a.example"⟩]
  body := some "\x7b\n\n  \"it's\": \"a:b\"\n\x7d"

theorem regular_draftMessage : draftMessage.Regular .post where
  method := by decide +kernel
  target_ne_empty := by decide
  target := Text.forall_of_all (by decide +kernel)
  names := by
    have hnames : ∀ h ∈ draftMessage.headers, Text.stripped h.name = h.name ∧
        '\n' ∉ h.name.toList ∧ h.name ≠ "" ∧ ':' ∉ h.name.toList := by decide +kernel
    intro h hh
    obtain ⟨hstripped, hline, hne, hcolon⟩ := hnames h hh
    exact ⟨⟨hstripped, hline⟩, hne, hcolon⟩
  values := by
    have hvalues : ∀ h ∈ draftMessage.headers,
        Text.stripped h.value = h.value ∧ '\n' ∉ h.value.toList := by decide +kernel
    intro h hh
    exact ⟨(hvalues h hh).1, (hvalues h hh).2⟩
  body_not_blank := by
    rintro b ⟨⟩
    decide +kernel
  body_breaks := by
    rintro b ⟨⟩
    decide +kernel
  body_ends := by
    rintro b ⟨⟩
    decide +kernel

end HttpRequest

end ApiSnippets
