import Mathlib.Data.List.Nodup
import ApiSnippets.Proofs.Entries
import ApiSnippets.Snippet
/-!
# Options of a command

A snippet for the command line is one command, and writing it never fails: the
words of the path and a verb, and then the options for keys, for the query, for
headers and for the body, in that order (`CommandLine.write_command`). Keys
that repeat share one option. A name of the query or of a header that is taken
gets a suffix, which is put once and not looked at again, and the option for a
body is called what it is called: so options have distinct names exactly when
no name is taken in both forms and none is that of the body
(`CommandLine.write_names_once`).
-/

namespace ApiSnippets

namespace CommandLine

variable {suffix n : String} {taken : List String} {o : String × String}
  {os ps : List (String × String)} {r : ResolvedRequest} {body : Option BodyGraph}

/-! ## The command -/

/-- The option for a body, where there is one. -/
def bodyOptions (body : Option BodyGraph) (r : ResolvedRequest) : List (String × String) :=
  (body.bind fun g => bodyOption? g r).toList

/-- The options of a command, in their order. -/
def options (body : Option BodyGraph) (r : ResolvedRequest) : List (String × String) :=
  pathOptions r.segments ++ callOptions r ++ bodyOptions body r

/-- The names of the options of a command. -/
def optionNames (body : Option BodyGraph) (r : ResolvedRequest) : List String :=
  (options body r).map Prod.fst

/-- The command for a request. -/
def command (body : Option BodyGraph) (r : ResolvedRequest) : String :=
  String.intercalate " " <|
    ["mgc" ++ dialect.chain r.segments, verb r] ++ (options body r).map writeOption

theorem writeOption_ne_empty (o : String × String) : writeOption o ≠ "" := by
  intro h
  have hdashes := congrArg String.toList h
  simp [writeOption] at hdashes

/-- A request without query options and headers has no options for them. -/
theorem callOptions_of_not_hasConfiguration (h : r.hasConfiguration = false) :
    callOptions r = [] := by
  have hnone : r.query = [] ∧ r.headers = [] := by
    simpa [ResolvedRequest.hasConfiguration] using h
  simp [callOptions, hnone, distinguish]

/-- Texts that are joined first may as well be joined with the others. -/
theorem intercalate_intercalate {sep : String} {ss ts us : List String} (hts : ts ≠ []) :
    String.intercalate sep (ss ++ (String.intercalate sep ts :: us)) =
      String.intercalate sep (ss ++ (ts ++ us)) := by
  have hjoined : String.intercalate sep (String.intercalate sep ts :: us) =
      String.intercalate sep (ts ++ us) := by
    cases us with
    | nil => simp
    | cons u us =>
      rw [String.intercalate_cons_cons, String.intercalate_append_of_ne_nil hts (by simp)]
  cases ss with
  | nil => exact hjoined
  | cons s ss =>
    have hmore : ts ++ us ≠ [] := List.append_ne_nil_of_left_ne_nil hts us
    rw [String.intercalate_append_of_ne_nil (by simp) (by simp), hjoined,
      String.intercalate_append_of_ne_nil (by simp) hmore]

theorem intercalate_writeOption_ne_empty (o : String × String) (os : List (String × String)) :
    String.intercalate " " ((o :: os).map writeOption) ≠ "" := by
  intro h
  cases os with
  | nil => exact writeOption_ne_empty o (by simpa using h)
  | cons p os =>
    rw [List.map_cons, List.map_cons, String.intercalate_cons_cons] at h
    have hspace := congrArg String.toList h
    simp at hspace

/-- What is configured is one argument, which stands for the options it joins. -/
theorem exists_configured (r : ResolvedRequest) : ∃ configured,
    (if r.hasConfiguration then language.configuration r else ([], none)) = ([], configured) ∧
      (∀ text, configured = some text → text ≠ "") ∧
      ∀ ss us, String.intercalate " " (ss ++ (configured.toList ++ us)) =
        String.intercalate " " (ss ++ ((callOptions r).map writeOption ++ us)) := by
  cases hconf : r.hasConfiguration with
  | false =>
    refine ⟨none, rfl, by simp, fun ss us => ?_⟩
    rw [callOptions_of_not_hasConfiguration hconf]
    rfl
  | true =>
    refine ⟨configuration r, rfl, ?_⟩
    cases hos : callOptions r with
    | nil => simp [configuration, hos]
    | cons o os =>
      have hconfigured : configuration r =
          some (String.intercalate " " ((o :: os).map writeOption)) := by
        simp [configuration, hos]
      rw [hconfigured]
      refine ⟨?_, fun ss us => intercalate_intercalate (by simp)⟩
      rintro text ⟨⟩
      exact intercalate_writeOption_ne_empty o os

/-- The argument for a body is its option, where it has one. -/
theorem exists_bodyArgument (body : Option BodyGraph) (r : ResolvedRequest) :
    ∃ argument, Snippet.bodyPart language r body = .ok ([], argument) ∧
      argument.toList.filter (· ≠ "") = (bodyOptions body r).map writeOption := by
  cases body with
  | none =>
    -- what stands for a body that is wanted and missing is empty
    refine ⟨_, rfl, ?_⟩
    split <;> rfl
  | some g =>
    refine ⟨(bodyOption? g r).map writeOption, rfl, ?_⟩
    cases h : bodyOption? g r with
    | none => simp [bodyOptions, h]
    | some o => simp [bodyOptions, h, writeOption_ne_empty]

/-- **Writing a command never fails**, and gives its words and its options. -/
theorem write_command (body : Option BodyGraph) (r : ResolvedRequest) (imports : List String) :
    Snippet.write language r body imports =
      .ok (Snippet.ofBlocks [[], imports, [], [], [command body r]]) := by
  obtain ⟨argument, hpart, hargument⟩ := exists_bodyArgument body r
  obtain ⟨configured, hconf, hne, hjoin⟩ := exists_configured r
  have harguments : language.arguments argument configured =
      configured.toList ++ (bodyOptions body r).map writeOption := by
    show (configured.toList ++ argument.toList).filter (· ≠ "") = _
    rw [List.filter_append, hargument]
    cases configured with
    | none => rfl
    | some text => simp [hne text rfl]
  have hcall : language.call (language.dialect.chain r.segments)
      (language.arguments argument configured) r = command body r := by
    show String.intercalate " " (["mgc" ++ dialect.chain r.segments, verb r] ++
      (pathOptions r.segments).map writeOption ++ language.arguments argument configured) = _
    rw [harguments, hjoin, command, options, List.map_append, List.map_append]
    simp only [List.append_assoc]
  unfold Snippet.write
  rw [hpart]
  simp only [bind, Except.bind, pure, Except.pure, hconf, hcall]
  rfl

/-! ## Names that are taken -/

/-- The name given to an option. -/
def given (suffix : String) (taken : List String) (name : String) : String :=
  if taken.contains name then name ++ suffix else name

theorem given_mem_iff : given suffix taken n ∈ taken ↔ n ∈ taken ∧ n ++ suffix ∈ taken := by
  unfold given
  by_cases hn : n ∈ taken <;> simp [hn]

theorem distinguish_cons : distinguish suffix taken (o :: os) =
    ((given suffix taken o.1, o.2) :: (distinguish suffix (given suffix taken o.1 :: taken) os).1,
      (distinguish suffix (given suffix taken o.1 :: taken) os).2) := rfl

/-- Only names change. -/
theorem values_distinguish :
    (distinguish suffix taken os).1.map Prod.snd = os.map Prod.snd := by
  induction os generalizing taken with
  | nil => rfl
  | cons o os ih => rw [distinguish_cons, List.map_cons, List.map_cons, ih]

/-- What is taken afterwards: what was taken, and the names given. -/
theorem mem_taken : n ∈ (distinguish suffix taken os).2 ↔
    n ∈ taken ∨ n ∈ (distinguish suffix taken os).1.map Prod.fst := by
  induction os generalizing taken with
  | nil => simp [distinguish]
  | cons o os ih =>
    rw [distinguish_cons]
    simp only [ih, List.mem_cons, List.map_cons]
    tauto

/-- An option that finds its name taken, with the suffix as well as without. -/
def Exhausted (suffix : String) (taken : List String) (os : List (String × String)) : Prop :=
  ∃ before o after, os = before ++ o :: after ∧
    o.1 ∈ (distinguish suffix taken before).2 ∧ o.1 ++ suffix ∈ (distinguish suffix taken before).2

theorem exhausted_cons : Exhausted suffix taken (o :: os) ↔
    (o.1 ∈ taken ∧ o.1 ++ suffix ∈ taken) ∨
      Exhausted suffix (given suffix taken o.1 :: taken) os := by
  constructor
  · rintro ⟨before, p, after, hos, hplain, hsuffixed⟩
    cases before with
    | nil =>
      obtain ⟨rfl, -⟩ := List.cons.inj hos
      exact .inl ⟨hplain, hsuffixed⟩
    | cons q before =>
      obtain ⟨rfl, rfl⟩ := List.cons.inj hos
      exact .inr ⟨before, p, after, rfl, hplain, hsuffixed⟩
  · rintro (⟨hplain, hsuffixed⟩ | ⟨before, p, after, rfl, hplain, hsuffixed⟩)
    · exact ⟨[], o, os, rfl, hplain, hsuffixed⟩
    · exact ⟨o :: before, p, after, rfl, hplain, hsuffixed⟩

/-- **Names are told apart** unless one is taken in both forms. -/
theorem nodup_distinguish : (((distinguish suffix taken os).1.map Prod.fst).Nodup ∧
      ∀ n ∈ (distinguish suffix taken os).1.map Prod.fst, n ∉ taken) ↔
    ¬ Exhausted suffix taken os := by
  -- on the options: the name given to one is taken for those after it
  induction os generalizing taken with
  | nil => simp [distinguish, Exhausted]
  | cons o os ih =>
    rw [exhausted_cons, not_or, ← ih, ← given_mem_iff, distinguish_cons, List.map_cons,
      List.nodup_cons, List.forall_mem_cons]
    constructor
    · rintro ⟨⟨hnew, hdistinct⟩, hfree, hrest⟩
      refine ⟨hfree, hdistinct, fun n hn => ?_⟩
      rw [List.mem_cons, not_or]
      exact ⟨fun h => hnew (h ▸ hn), hrest n hn⟩
    · rintro ⟨hfree, hdistinct, hrest⟩
      refine ⟨⟨fun hn => hrest _ hn List.mem_cons_self, hdistinct⟩, hfree, fun n hn => ?_⟩
      exact fun h => hrest n hn (List.mem_cons_of_mem _ h)

theorem exists_of_mem_distinguish (h : n ∈ (distinguish suffix taken os).1.map Prod.fst) :
    ∃ o ∈ os, n = o.1 ∨ n = o.1 ++ suffix := by
  induction os generalizing taken with
  | nil => simp [distinguish] at h
  | cons o os ih =>
    rw [distinguish_cons, List.map_cons, List.mem_cons] at h
    rcases h with rfl | h
    · refine ⟨o, List.mem_cons_self, ?_⟩
      unfold given
      split
      · exact .inr rfl
      · exact .inl rfl
    · obtain ⟨p, hp, hn⟩ := ih h
      exact ⟨p, List.mem_cons_of_mem _ hp, hn⟩

/-- Names that do not repeat can be told apart from those that are taken, as long
as none has the suffix already. -/
theorem not_exhausted (hnames : (os.map Prod.fst).Nodup)
    (hfree : ∀ o ∈ os, o.1 ++ suffix ∉ taken) (hplain : ∀ o ∈ os, ∀ n, o.1 ≠ n ++ suffix) :
    ¬ Exhausted suffix taken os := by
  rintro ⟨before, o, after, rfl, -, hsuffixed⟩
  rcases mem_taken.1 hsuffixed with htaken | hgiven
  · exact hfree o (by simp) htaken
  · obtain ⟨p, hp, hname | hname⟩ := exists_of_mem_distinguish hgiven
    · exact hplain p (by simp [hp]) o.1 hname.symm
    · -- an earlier option of the same name
      have hsame : o.1 = p.1 := (String.append_left_inj suffix).1 hname
      rw [List.map_append, List.map_cons, List.nodup_append] at hnames
      exact hnames.2.2 p.1 (List.mem_map_of_mem hp) o.1 List.mem_cons_self hsame.symm

/-! ## Names of options -/

/-- The options of a query, called as they are asked for. -/
def queryOptions (r : ResolvedRequest) : List (String × String) :=
  r.query.map fun o => (Naming.kebab o.name, optionValue o.value)

/-- The options for headers, called as the headers are. -/
def headerOptions (r : ResolvedRequest) : List (String × String) :=
  r.headers.map fun h => (Naming.kebab h.name, Text.shellWord h.value)

/-- The names of the options for a path. -/
def pathNames (r : ResolvedRequest) : List String :=
  Entries.keys (pathOptions r.segments)

/-- The names that are taken before the headers. -/
def queryTaken (r : ResolvedRequest) : List String :=
  (distinguish "-query" (pathNames r) (queryOptions r)).2

/-- **Keys and bound parameters never clash**, since one that repeats keeps its
option. -/
theorem nodup_pathNames (r : ResolvedRequest) : (pathNames r).Nodup := by
  have hdistinct : Entries.Distinct (pathOptions r.segments) :=
    Entries.distinct_putAll _ List.Pairwise.nil
  refine hdistinct.imp fun {a b} hne => ?_
  rintro rfl
  simp at hne

theorem names_callOptions (r : ResolvedRequest) : (callOptions r).map Prod.fst =
    (distinguish "-query" (pathNames r) (queryOptions r)).1.map Prod.fst ++
      (distinguish "-header" (queryTaken r) (headerOptions r)).1.map Prod.fst :=
  List.map_append

theorem values_callOptions (r : ResolvedRequest) : (callOptions r).map Prod.snd =
    (r.query.map fun o => optionValue o.value) ++
      r.headers.map fun h => Text.shellWord h.value := by
  have hvalues : (callOptions r).map Prod.snd =
      (distinguish "-query" (pathNames r) (queryOptions r)).1.map Prod.snd ++
        (distinguish "-header" (queryTaken r) (headerOptions r)).1.map Prod.snd := List.map_append
  rw [hvalues, values_distinguish, values_distinguish, queryOptions, headerOptions, List.map_map,
    List.map_map]
  rfl

theorem mem_queryTaken : n ∈ queryTaken r ↔ n ∈ pathNames r ∨
    n ∈ (distinguish "-query" (pathNames r) (queryOptions r)).1.map Prod.fst :=
  mem_taken

/-- The names of all options but that for the body. -/
theorem nodup_callNames (r : ResolvedRequest) :
    (pathNames r ++ (callOptions r).map Prod.fst).Nodup ↔
      ¬ Exhausted "-query" (pathNames r) (queryOptions r) ∧
        ¬ Exhausted "-header" (queryTaken r) (headerOptions r) := by
  rw [← nodup_distinguish, ← nodup_distinguish, names_callOptions]
  generalize hquery : (distinguish "-query" (pathNames r) (queryOptions r)).1.map Prod.fst = query
  generalize (distinguish "-header" (queryTaken r) (headerOptions r)).1.map Prod.fst = headers
  simp only [mem_queryTaken, hquery, List.nodup_append, nodup_pathNames, true_and, not_or,
    List.mem_append]
  constructor
  · rintro ⟨⟨hqueries, hheaders, hapart⟩, hpath⟩
    refine ⟨⟨hqueries, fun n hn hp => hpath n hp n (.inl hn) rfl⟩, hheaders, fun n hn => ⟨?_, ?_⟩⟩
    · exact fun hp => hpath n hp n (.inr hn) rfl
    · exact fun hq => hapart n hq n hn rfl
  · rintro ⟨⟨hqueries, hfree⟩, hheaders, hrest⟩
    refine ⟨⟨hqueries, hheaders, ?_⟩, ?_⟩
    · rintro n hq _ hn rfl
      exact (hrest n hn).2 hq
    · rintro n hp _ (hn | hn) rfl
      · exact hfree n hn hp
      · exact (hrest n hn).1 hp

/-- The name of the option for a body is one of two. -/
theorem mem_bodyOptions (ho : o ∈ bodyOptions body r) : o.1 = "file" ∨ o.1 = "body" := by
  obtain ⟨g, -, hoption⟩ := Option.bind_eq_some_iff.1 (Option.mem_toList.1 ho)
  unfold bodyOption? at hoption
  split at hoption
  · cases hoption
    exact .inl rfl
  · dsimp only at hoption
    split at hoption <;> cases hoption
    exact .inr rfl

theorem nodup_optionNames (body : Option BodyGraph) (r : ResolvedRequest) :
    (optionNames body r).Nodup ↔
      ¬ Exhausted "-query" (pathNames r) (queryOptions r) ∧
        ¬ Exhausted "-header" (queryTaken r) (headerOptions r) ∧
        ∀ o ∈ bodyOptions body r, o.1 ∉ pathNames r ++ (callOptions r).map Prod.fst := by
  have hnames : optionNames body r = pathNames r ++ (callOptions r).map Prod.fst ++
      (bodyOptions body r).map Prod.fst := by
    simp only [optionNames, options, List.map_append]
    rfl
  -- the option for a body is alone
  have halone : ((bodyOptions body r).map Prod.fst).Nodup := by
    unfold bodyOptions
    cases body.bind fun g => bodyOption? g r <;> simp
  rw [hnames, ← and_assoc, ← nodup_callNames, List.nodup_append]
  constructor
  · rintro ⟨hcall, -, hapart⟩
    exact ⟨hcall, fun o ho hmem => hapart _ hmem _ (List.mem_map_of_mem ho) rfl⟩
  · rintro ⟨hcall, hapart⟩
    refine ⟨hcall, halone, ?_⟩
    rintro n hn _ hmem rfl
    obtain ⟨o, ho, rfl⟩ := List.mem_map.1 hmem
    exact hapart o ho hn

/-- **What the suffixes achieve**: names that do not repeat within the query and
within the headers, that have no suffix of their own and are not that of the
option for the body are told apart. -/
theorem nodup_optionNames_of_plain
    (hquery : ((queryOptions r).map Prod.fst).Nodup)
    (hheaders : ((headerOptions r).map Prod.fst).Nodup)
    (hplain : ∀ n ∈ pathNames r ++ (queryOptions r ++ headerOptions r).map Prod.fst,
      ∀ m, n ≠ m ++ "-query" ∧ n ≠ m ++ "-header")
    (hbody : ∀ o ∈ bodyOptions body r,
      o.1 ∉ pathNames r ++ (queryOptions r ++ headerOptions r).map Prod.fst) :
    (optionNames body r).Nodup := by
  simp only [List.map_append, List.mem_append] at hplain hbody
  have hends : ∀ m n : String, m ++ "-query" ≠ n ++ "-header" := by
    intro m n h
    have hlast := congrArg (fun s => s.toList.getLast?) h
    simp at hlast
  rw [nodup_optionNames]
  refine ⟨not_exhausted hquery ?_ ?_, not_exhausted hheaders ?_ ?_, ?_⟩
  · exact fun o _ htaken => (hplain _ (.inl htaken) o.1).1 rfl
  · exact fun o ho m => (hplain _ (.inr (.inl (List.mem_map_of_mem ho))) m).1
  · -- a header's name with its suffix is no name of the path or of the query
    intro o _ htaken
    rcases mem_queryTaken.1 htaken with hpath | hgiven
    · exact (hplain _ (.inl hpath) o.1).2 rfl
    · obtain ⟨p, hp, hname | hname⟩ := exists_of_mem_distinguish hgiven
      · exact (hplain _ (.inr (.inl (List.mem_map_of_mem hp))) o.1).2 hname.symm
      · exact hends _ _ hname.symm
  · exact fun o ho m => (hplain _ (.inr (.inr (List.mem_map_of_mem ho))) m).2
  · intro o ho hmem
    -- the name of the body is too short to have a suffix
    have hlength : o.1.length = 4 := by
      rcases mem_bodyOptions ho with hname | hname <;> rw [hname] <;> rfl
    have hshort : ∀ m suffix : String, 4 < suffix.length → o.1 ≠ m ++ suffix := by
      intro m suffix hlong hname
      rw [hname, String.length_append] at hlength
      omega
    rw [names_callOptions, List.mem_append, List.mem_append] at hmem
    rcases hmem with hpath | hgiven | hgiven
    · exact hbody o ho (.inl hpath)
    · obtain ⟨p, hp, hname | hname⟩ := exists_of_mem_distinguish hgiven
      · exact hbody o ho (.inr (.inl (hname ▸ List.mem_map_of_mem hp)))
      · exact hshort _ _ (by decide) hname
    · obtain ⟨p, hp, hname | hname⟩ := exists_of_mem_distinguish hgiven
      · exact hbody o ho (.inr (.inr (hname ▸ List.mem_map_of_mem hp)))
      · exact hshort _ _ (by decide) hname

/-- **Options have distinct names** exactly when no option of the query and no
header finds its name taken both as it is and with its suffix, and no option
before it is called as that for the body is. -/
theorem write_names_once (body : Option BodyGraph) (r : ResolvedRequest) (imports : List String) :
    Snippet.write language r body imports =
        .ok (Snippet.ofBlocks [[], imports, [], [], [command body r]]) ∧
      ((optionNames body r).Nodup ↔
        ¬ Exhausted "-query" (pathNames r) (queryOptions r) ∧
          ¬ Exhausted "-header" (queryTaken r) (headerOptions r) ∧
          ∀ o ∈ bodyOptions body r, o.1 ∉ pathNames r ++ (callOptions r).map Prod.fst) :=
  ⟨write_command body r imports, nodup_optionNames body r⟩

/-- A request with a header that repeats. -/
def preferRequest : ResolvedRequest where
  method := .get
  version := "v1.0"
  path := "/me"
  template := "/me"
  segments := [PathSegment.literal "me"]
  operation := { method := .get }
  query := []
  headers := [⟨"Prefer", "a"⟩, ⟨"Prefer", "b"⟩, ⟨"Prefer", "c"⟩]
  contentType := none
  body := none
  index := default

/-- The third time, the suffix does not help. -/
theorem write_names_once_prefer :
    command none preferRequest = "mgc me get --prefer a --prefer-header b --prefer-header c" ∧
      Exhausted "-header" (queryTaken preferRequest) (headerOptions preferRequest) ∧
      ¬ (optionNames none preferRequest).Nodup := by
  have hexhausted : Exhausted "-header" (queryTaken preferRequest) (headerOptions preferRequest) :=
    ⟨[("prefer", "a"), ("prefer", "b")], ("prefer", "c"), [], by decide, by decide, by decide⟩
  refine ⟨by decide, hexhausted, fun hnodup => ?_⟩
  obtain ⟨-, hheaders, -⟩ := ((write_names_once none preferRequest []).2).1 hnodup
  exact hheaders hexhausted

end CommandLine

end ApiSnippets
