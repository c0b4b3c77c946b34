import ApiSnippets.Proofs.Code.Imports
import ApiSnippets.Proofs.Target.Mentions
/-!
# The packages of a body in Go

Which of the packages that the lines of a body mention are imported. Those of
objects, of models and of literals are; those of element types are only when a
literal of the body asks for the same package. So a collection of identifiers
needs an identifier in the body, one of times needs a point in time, and
synthesized types of elements and enumerations are looked for in a package that
they are not imported from (`Go.body_packages_imported`).
-/

namespace ApiSnippets

namespace Go

open Qualifiers

variable {t : TypeRef} {segments : List PathSegment} {n : BodyNode} {q : String}
variable {item : Option ItemType}

/-! ## Import lines -/

/-- What stands behind the last slash of a path. -/
def lastPart (path : List Char) : List Char :=
  (path.reverse.takeWhile (· ≠ '/')).reverse

/-- The name under which a line of an import declaration makes a package known:
its alias, or the last part of its path. -/
def importedBy? (line : String) : Option String :=
  match line.toList with
  | '\t' :: c :: cs =>
    some <| String.ofList <|
      if c = '"' then lastPart (cs.takeWhile (· ≠ '"')) else (c :: cs).takeWhile (· ≠ ' ')
  | _ => none

/-- That import lines make a package known under a name. -/
def Imported (imports : List String) (q : String) : Prop :=
  ∃ line ∈ imports, importedBy? line = some q

/-- An alias is read up to the first blank. -/
theorem importedBy?_named {i : Import} {c : Char} {cs : List Char} (hname : i.name.toList = c :: cs)
    (hc : c ≠ '"') : importedBy? (Language.indented (writeImport i)) =
      some (String.ofList ((c :: cs).takeWhile (· ≠ ' '))) := by
  have hne : i.name.isEmpty = false := by
    refine Bool.eq_false_iff.2 fun hempty => ?_
    rw [String.isEmpty_iff.1 hempty] at hname
    cases hname
  have hline : (Language.indented (writeImport i)).toList =
      '\t' :: c :: (cs ++ ' ' :: '"' :: (i.source.toList ++ ['"'])) := by
    simp [Language.indented, Line.tab, writeImport, hne, hname]
  unfold importedBy?
  rw [hline]
  simp only [if_neg hc]
  rw [← List.cons_append, Text.takeWhile_append_stop (by decide)]

theorem importedBy?_path {source : String} (hquote : '"' ∉ source.toList) :
    importedBy? (Language.indented (writeImport ⟨"", source⟩)) =
      some (String.ofList (lastPart source.toList)) := by
  have hall : ∀ c ∈ source.toList, decide (c ≠ '"') = true := by
    intro c hc
    refine decide_eq_true ?_
    rintro rfl
    exact hquote hc
  have hline : (Language.indented (writeImport ⟨"", source⟩)).toList =
      '\t' :: '"' :: (source.toList ++ '"' :: []) := by
    simp [Language.indented, Line.tab, writeImport]
  unfold importedBy?
  rw [hline]
  simp only [if_true]
  rw [Text.takeWhile_run hall (by decide)]

theorem mem_layout {imports : List Import} {line : String} (h : line ∈ layout imports) :
    importedBy? line = none ∨ ∃ i ∈ imports, line = Language.indented (writeImport i) := by
  unfold layout at h
  split at h
  · cases h
  · rcases List.mem_append.1 h with h | h
    · rcases List.mem_append.1 h with h | h
      · rw [List.mem_singleton.1 h]
        exact .inl (by decide)
      · obtain ⟨i, hi, rfl⟩ := List.mem_map.1 h
        exact .inr ⟨i, hi, rfl⟩
    · rw [List.mem_singleton.1 h]
      exact .inl (by decide)

/-- What is imported is known under its name. -/
theorem imported_layout {imports : List Import} {i : Import} (hi : i ∈ imports) {q : String}
    (hq : importedBy? (Language.indented (writeImport i)) = some q) :
    Imported (layout imports) q := by
  have hne : imports.isEmpty = false := by
    cases imports with
    | nil => cases hi
    | cons => rfl
  refine ⟨Language.indented (writeImport i), ?_, hq⟩
  unfold layout
  rw [hne]
  exact List.mem_append_left _ (List.mem_append_right _ (List.mem_map_of_mem hi))

/-- The model of a type is imported under its package. -/
theorem importedBy?_model (h : IsPlain (model segments t).name) :
    importedBy? (Language.indented (writeImport (model segments t))) =
      some (model segments t).name := by
  obtain ⟨package, hpackage⟩ := exists_model_name segments t
  have hname : (model segments t).name.toList = 'g' :: ("raph".toList ++ package.toList) := by
    rw [hpackage, String.toList_append]
    rfl
  have hall : ∀ c ∈ (model segments t).name.toList, decide (c ≠ ' ') = true := by
    intro c hc
    refine decide_eq_true ?_
    rintro rfl
    exact absurd (h.run _ hc) (by decide)
  rw [importedBy?_named hname (by decide), ← hname, List.takeWhile_eq_self_iff.2 hall,
    String.ofList_toList]

/-! ## What is imported -/

section Resolved

variable {r : ResolvedRequest} {g : BodyGraph} {lines : List String} {draft : Option String}

/-- The paths of the packages that literals depend on. -/
def literalPaths : List String :=
  ["time", "github.com/google/uuid", "encoding/base64"]

/-- The letters that the aliases of all other packages begin with. -/
def aliasLetters : List Char :=
  ['g', 'm', 'a']

theorem literalImports_path {i : Import} (h : i ∈ literalImports n) :
    ∃ path ∈ literalPaths, i = ⟨"", path⟩ := by
  unfold literalImports at h
  split at h
  · exact ⟨"time", by decide, List.mem_singleton.1 h⟩
  · exact ⟨"github.com/google/uuid", by decide, List.mem_singleton.1 h⟩
  · exact ⟨"encoding/base64", by decide, List.mem_singleton.1 h⟩
  · cases h

/-- **The imports of a snippet with a body**: the models of all types that it
names and the packages of its literals are there, and what else has a path only
is the package of contexts. -/
theorem exists_imports (h : Imports.resolve r language (some g) draft = .ok lines) :
    ∃ imports, lines = layout imports ∧
      (∀ t ∈ Language.typesOf g.root, model r.segments t ∈ imports) ∧
      (∀ n ∈ g.root.walk, ∀ i ∈ literalImports n, i ∈ imports) ∧
      ∀ i ∈ imports, i = ⟨"", "context"⟩ ∨ (∃ n ∈ g.root.walk, i ∈ literalImports n) ∨
        ∃ c cs, i.name.toList = c :: cs ∧ c ∈ aliasLetters := by
  have hgraph : ∀ package : String, ∃ c cs,
      ("graph" ++ package).toList = c :: cs ∧ c ∈ aliasLetters := by
    intro package
    refine ⟨'g', "raph".toList ++ package.toList, ?_, by decide⟩
    rw [String.toList_append]
    rfl
  have hmodel : ∀ t, ∃ c cs, (model r.segments t).name.toList = c :: cs ∧ c ∈ aliasLetters := by
    intro t
    obtain ⟨package, hpackage⟩ := exists_model_name r.segments t
    exact hpackage ▸ hgraph package
  obtain ⟨imports, types, rfl, himports⟩ := Imports.exists_imports_of_resolve rfl h
  refine ⟨imports, rfl, fun t ht => ?_, fun n hn i hi => ?_, fun i hi => ?_⟩
  · exact (himports _).2 (.inr (.inr (.inl (List.mem_append_left _ (List.mem_map_of_mem ht)))))
  · exact (himports i).2 (.inr (.inr (.inl
      (List.mem_append_right _ (List.mem_flatMap.2 ⟨n, hn, hi⟩)))))
  -- what the code itself names comes from the frame, from the options or from the body
  · rcases (himports i).1 hi with hroot | ⟨-, hconfiguration⟩ | hbody | ⟨t, -, rfl⟩
    · rcases List.mem_pair.1 hroot with rfl | rfl
      · exact .inl rfl
      · exact .inr (.inr ⟨'m', _, rfl, by decide⟩)
    · right; right
      rcases List.mem_cons.1 hconfiguration with rfl | hconfiguration
      · exact hgraph _
      · split at hconfiguration
        · cases hconfiguration
        · rw [List.mem_singleton.1 hconfiguration]
          exact ⟨'a', _, rfl, by decide⟩
    · rcases List.mem_append.1 hbody with hbody | hbody
      · obtain ⟨t, -, rfl⟩ := List.mem_map.1 hbody
        exact .inr (.inr (hmodel t))
      · exact .inr (.inl (List.mem_flatMap.1 hbody))
    · exact .inr (.inr (hmodel t))

/-- **A package of literals is imported when a literal depends on it**, and for
no other reason. -/
theorem imported_literal_iff (h : Imports.resolve r language (some g) draft = .ok lines)
    (path : String) (hpath : path ∈ literalPaths) :
    Imported lines (String.ofList (lastPart path.toList)) ↔
      ∃ n ∈ g.root.walk, ⟨"", path⟩ ∈ literalImports n := by
  have hquotes : ∀ path ∈ "context" :: literalPaths, '"' ∉ path.toList := by decide
  have hparts : ∀ a ∈ literalPaths, ∀ b ∈ "context" :: literalPaths,
      lastPart b.toList = lastPart a.toList → a = b := by decide +kernel
  have hfirst : ∀ a ∈ literalPaths, (lastPart a.toList).head? ∉ aliasLetters.map some := by
    decide +kernel
  have hletters : ∀ c ∈ aliasLetters, c ≠ '"' ∧ c ≠ ' ' := Text.forall_of_all (by decide)
  obtain ⟨imports, rfl, -, hliterals, hothers⟩ := exists_imports h
  constructor
  · rintro ⟨line, hline, hname⟩
    rcases mem_layout hline with hnone | ⟨i, hi, rfl⟩
    · rw [hnone] at hname
      cases hname
    · rcases hothers i hi with rfl | ⟨n, hn, hi⟩ | ⟨c, cs, hname', hc⟩
      · rw [importedBy?_path (hquotes _ List.mem_cons_self)] at hname
        have hsame := String.ofList_inj.1 (Option.some.inj hname)
        have hcontext := hparts path hpath _ List.mem_cons_self hsame
        subst hcontext
        exact absurd hpath (by decide)
      · obtain ⟨source, hsource, rfl⟩ := literalImports_path hi
        rw [importedBy?_path (hquotes _ (List.mem_cons_of_mem _ hsource))] at hname
        have hsame := String.ofList_inj.1 (Option.some.inj hname)
        obtain rfl := hparts path hpath _ (List.mem_cons_of_mem _ hsource) hsame
        exact ⟨n, hn, hi⟩
      · -- the alias of another import begins with another letter
        obtain ⟨hquote, hblank⟩ := hletters c hc
        rw [importedBy?_named hname' hquote, List.takeWhile_cons_of_pos (by simpa using hblank)]
          at hname
        refine absurd ?_ (hfirst path hpath)
        rw [← String.ofList_inj.1 (Option.some.inj hname), List.head?_cons]
        exact List.mem_map_of_mem hc
  · rintro ⟨n, hn, hi⟩
    exact imported_layout (hliterals n hn _ hi)
      (importedBy?_path (hquotes path (List.mem_cons_of_mem _ hpath)))

/-! ## Bodies -/

/-- The types of elements and of enumerations. -/
def IsElementType (root : BodyNode) (t : TypeRef) : Prop :=
  (∃ members flags, .enum t members flags ∈ root.walk) ∨
    ∃ item elements, .array (some item) elements ∈ root.walk ∧ item.typeRef? = some t

/-- The packages that the code of a body mentions although nothing in the body
may import them: those of collections whose elements are no literals of that
package, and those of models where the type is not one. -/
inductive MayLack (root : BodyNode) : String → Prop
  | uuid {elements : List BodyNode} : .array (some .guid) elements ∈ root.walk →
      (∀ v, .guid v ∉ root.walk) → MayLack root "uuid"
  | time {elements : List BodyNode} : .array (some .datetime) elements ∈ root.walk →
      (∀ v, .datetime v .dateTime ∉ root.walk) → MayLack root "time"
  | model {t : TypeRef} : t.synthesized = true → IsElementType root t →
      MayLack root (modelPackage t)

theorem mem_typesOf_of_isElementType (h : IsElementType g.root t) :
    t ∈ Language.typesOf g.root := by
  rcases h with ⟨members, flags, hn⟩ | ⟨item, elements, hn, hitem⟩
  · exact List.mem_filterMap.2 ⟨_, hn, rfl⟩
  · exact List.mem_filterMap.2 ⟨_, hn, hitem⟩

theorem mem_literalImports_uuid :
    ⟨"", "github.com/google/uuid"⟩ ∈ literalImports n ↔ ∃ v, n = .guid v := by
  unfold literalImports
  split <;> simp_all

theorem mem_literalImports_time :
    ⟨"", "time"⟩ ∈ literalImports n ↔ ∃ v, n = .datetime v .dateTime := by
  unfold literalImports
  split <;> simp_all

/-- **The package of identifiers is imported for identifiers** alone. -/
theorem imported_uuid_iff (h : Imports.resolve r language (some g) draft = .ok lines) :
    Imported lines "uuid" ↔ ∃ v, .guid v ∈ g.root.walk := by
  have hname : String.ofList (lastPart "github.com/google/uuid".toList) = "uuid" := by
    decide
  have hliteral := imported_literal_iff h "github.com/google/uuid" (by decide)
  rw [hname] at hliteral
  rw [hliteral]
  constructor
  · rintro ⟨n, hn, hi⟩
    obtain ⟨v, rfl⟩ := mem_literalImports_uuid.1 hi
    exact ⟨v, hn⟩
  · rintro ⟨v, hv⟩
    exact ⟨_, hv, mem_literalImports_uuid.2 ⟨v, rfl⟩⟩

/-- **The package of times is imported for points in time** alone. -/
theorem imported_time_iff (h : Imports.resolve r language (some g) draft = .ok lines) :
    Imported lines "time" ↔ ∃ v, .datetime v .dateTime ∈ g.root.walk := by
  have hname : String.ofList (lastPart "time".toList) = "time" := by decide +kernel
  have hliteral := imported_literal_iff h "time" (by decide)
  rw [hname] at hliteral
  rw [hliteral]
  constructor
  · rintro ⟨n, hn, hi⟩
    obtain ⟨v, rfl⟩ := mem_literalImports_time.1 hi
    exact ⟨v, hn⟩
  · rintro ⟨v, hv⟩
    exact ⟨_, hv, mem_literalImports_time.2 ⟨v, rfl⟩⟩

/-- The package of an element type is imported when the type is one of the
description. -/
theorem imported_or_mayLack_model (h : Imports.resolve r language (some g) draft = .ok lines)
    (ht : IsElementType g.root t) (hplain : IsPlain (modelPackage t)) :
    Imported lines (modelPackage t) ∨ MayLack g.root (modelPackage t) := by
  cases hsynthesized : t.synthesized with
  | true => exact .inr (.model hsynthesized ht)
  | false =>
    have hname : (model r.segments t).name = modelPackage t := by
      rw [model, if_neg (by simp [hsynthesized])]
    obtain ⟨imports, rfl, hmodels, -⟩ := exists_imports h
    rw [← hname] at hplain ⊢
    exact .inl (imported_layout (hmodels t (mem_typesOf_of_isElementType ht))
      (importedBy?_model hplain))

/-- The packages of an element type are imported for other reasons. -/
theorem imported_or_mayLack_item {elements : List BodyNode}
    (h : Imports.resolve r language (some g) draft = .ok lines)
    (hn : .array item elements ∈ g.root.walk) (hplain : ∀ q ∈ itemPackages item, IsPlain q)
    (hq : q ∈ itemPackages item) : Imported lines q ∨ MayLack g.root q := by
  rcases item with _ | _ | _ | _ | _ | _ | _ | t | t | _
  case some.guid =>
    obtain rfl := List.mem_singleton.1 hq
    by_cases hguid : ∃ v, .guid v ∈ g.root.walk
    · exact .inl ((imported_uuid_iff h).2 hguid)
    · exact .inr (.uuid hn (not_exists.1 hguid))
  case some.datetime =>
    obtain rfl := List.mem_singleton.1 hq
    by_cases htime : ∃ v, .datetime v .dateTime ∈ g.root.walk
    · exact .inl ((imported_time_iff h).2 htime)
    · exact .inr (.time hn (not_exists.1 htime))
  case some.enum =>
    obtain rfl := List.mem_singleton.1 hq
    exact imported_or_mayLack_model h (.inr ⟨.enum t, elements, hn, rfl⟩) (hplain _ hq)
  case some.object =>
    obtain rfl := List.mem_singleton.1 hq
    exact imported_or_mayLack_model h (.inr ⟨.object t, elements, hn, rfl⟩) (hplain _ hq)
  all_goals cases hq

/-- **The packages of a node are imported**, or lack an import. -/
theorem imported_or_mayLack (h : Imports.resolve r language (some g) draft = .ok lines)
    (hn : n ∈ g.root.walk) (hnames : HasNames r.segments n)
    (hq : q ∈ nodePackages r.segments n) : Imported lines q ∨ MayLack g.root q := by
  cases n with
  | object t members derived =>
    obtain rfl := List.mem_singleton.1 hq
    obtain ⟨imports, rfl, hmodels, -⟩ := exists_imports h
    have ht : t ∈ Language.typesOf g.root := List.mem_filterMap.2 ⟨_, hn, rfl⟩
    exact .inl (imported_layout (hmodels t ht) (importedBy?_model hnames))
  | array item elements => exact imported_or_mayLack_item h hn hnames hq
  | guid v =>
    obtain rfl := List.mem_singleton.1 hq
    exact .inl ((imported_uuid_iff h).2 ⟨v, hn⟩)
  | datetime v temporal =>
    cases temporal with
    | dateTime =>
      obtain rfl := List.mem_singleton.1 hq
      exact .inl ((imported_time_iff h).2 ⟨v, hn⟩)
    | _ => cases hq
  | enum t members flags =>
    obtain rfl := List.mem_singleton.1 hq
    exact imported_or_mayLack_model h (.inl ⟨members, flags, hn⟩) hnames.1
  | stream octets =>
    obtain rfl := List.mem_singleton.1 hq
    have hname : String.ofList (lastPart "encoding/base64".toList) = "base64" := by rfl
    have hliteral := imported_literal_iff h "encoding/base64" (by decide)
    rw [hname] at hliteral
    exact .inl (hliteral.2 ⟨_, hn, List.mem_singleton_self _⟩)
  | _ => cases hq

/-- A list is declared for every array of a body. -/
theorem exists_listHead {root : BodyNode} {ss : List Statement} {op : Operand}
    {elements : List BodyNode} (h : style.body dialect root = .ok (ss, op))
    (hn : .array item elements ∈ root.walk) :
    ∃ name operands, Statement.list name item operands ∈ ss := by
  have hscoped := SetterStyle.wellScoped_body (d := dialect) (by decide) h
  have hnode : Container.list item elements.length ∈ root.walk.filterMap BodyNode.container? :=
    List.mem_filterMap.2 ⟨_, hn, rfl⟩
  obtain ⟨st, hst, hcontainer⟩ := List.mem_filterMap.1 (hscoped.containers.mem_iff.2 hnode)
  cases st with
  | list name item' operands =>
    obtain ⟨rfl, -⟩ := Container.list.inj (Option.some.inj hcontainer)
    exact ⟨name, operands, hst⟩
  | _ => cases hcontainer

/-- **Which packages of a body are imported.** Each name that qualifies another
in the lines of a body is a package that the snippet imports, or one that may
lack an import, or the variable of a setter. The packages of identifiers and of
times are imported exactly when the body holds an identifier or a point in time;
and the line that opens a list, also of an empty one, mentions the package of
its element type. -/
theorem body_packages_imported (r : ResolvedRequest) (g : BodyGraph) (body lines : List String)
    (argument draft : Option String) (hbody : language.bodyCode g r = .ok (body, argument))
    (himports : Imports.resolve r language (some g) draft = .ok lines)
    (hnames : ∀ n ∈ g.root.walk, HasNames r.segments n) :
    (∀ line ∈ body, ∀ q ∈ qualifiers line,
        Imported lines q ∨ MayLack g.root q ∨ q ∈ declaredBy body ∧ IsSetter q line) ∧
      (Imported lines "uuid" ↔ ∃ v, .guid v ∈ g.root.walk) ∧
      (Imported lines "time" ↔ ∃ v, .datetime v .dateTime ∈ g.root.walk) ∧
      ∀ item elements, .array item elements ∈ g.root.walk →
        ∃ line ∈ body, qualifiers line = itemPackages item := by
  obtain ⟨⟨ss, op⟩, hss, hpure⟩ := Outcome.bind_eq_ok.1 hbody
  cases Outcome.pure_eq_ok.1 hpure
  have hscoped := SetterStyle.wellScoped_body (d := dialect) (by decide) hss
  have hvariable : ∀ st ∈ ss, ∀ v, st.declared? = some v ∨ v ∈ st.used → IsPlain v := by
    intro st hst v hv
    have hdeclared : v ∈ SetterStyle.declared ss := by
      rcases hv with hv | hv
      · exact List.mem_filterMap.2 ⟨st, hst, hv⟩
      · exact hscoped.mem_declared hst hv
    have hname := LineForm.isName_of_mem_declared rfl rfl hss hdeclared
    refine IsPlain.of_isWordChar fun c hc => ?_
    simpa [Locals.isNameChar] using hname.chars c hc
  refine ⟨fun line hline q hq => ?_, imported_uuid_iff himports, imported_time_iff himports,
    fun item elements hn => ?_⟩
  · obtain ⟨st, hst, hline⟩ := List.mem_flatMap.1 hline
    have hcontainer : ∀ c, st.container? = some c → ∃ n ∈ g.root.walk, n.container? = some c := by
      intro c hc
      have hmem := hscoped.containers.mem_iff.1 (List.mem_filterMap.2 ⟨st, hst, hc⟩)
      exact List.mem_filterMap.1 hmem
    have hstems := (SetterStyle.stems_body hss).statements st hst
    -- packages of nodes are settled one by one, other names are those of setters
    rcases mentions_statement hnames hstems hcontainer (hvariable st hst) line hline q hq with
      hpackage | ⟨hused, hsetter⟩
    · obtain ⟨n, hn, hq⟩ := List.mem_flatMap.1 hpackage
      exact (imported_or_mayLack himports hn (hnames n hn) hq).imp_right .inl
    · have hdeclares : declaredBy (ss.flatMap (style.write r.segments)) = SetterStyle.declared ss :=
        declaredBy_body hss
      exact .inr (.inr ⟨hdeclares ▸ hscoped.mem_declared hst hused, hsetter⟩)
  · obtain ⟨name, operands, hlist⟩ := exists_listHead hss hn
    have hhead := shows_listHead (hvariable _ hlist name (.inl rfl)) (hnames _ hn)
    refine ⟨_, List.mem_flatMap.2 ⟨_, hlist, ?_⟩, hhead.qualifiers⟩
    exact List.mem_append_left _ (List.mem_append_left _ (List.mem_singleton_self _))

end Resolved

/-- `POST /things` with a body. -/
def idsRequest : ResolvedRequest where
  method := .post
  version := "v1.0"
  path := "/things"
  template := "/things"
  segments := [PathSegment.literal "things"]
  operation := { method := .post }
  query := []
  headers := []
  contentType := some "application/json"
  body := none
  index := default

/-- A body with an empty collection of identifiers. -/
def idsBody : BodyGraph where
  root := .object { name := "ThingsPostRequestBody", synthesized := true }
    [("ids", .array (some .guid) [])] false

/-- What is written for that body. -/
def idsLines : List String :=
  ["requestBody := graphthings.NewThingsPostRequestBody()", "ids := []uuid.UUID \x7b", "\x7d",
    "requestBody.SetIds(ids)"]

/-- An empty collection of identifiers names a package that is not imported. -/
theorem body_packages_imported_ids :
    language.bodyCode idsBody idsRequest = .ok (idsLines, some "requestBody") ∧
      (∀ n ∈ idsBody.root.walk, HasNames idsRequest.segments n) ∧
      ∃ lines, Imports.resolve idsRequest language (some idsBody) none = .ok lines ∧
        (∃ line ∈ idsLines, qualifiers line = ["uuid"]) ∧ ¬ Imported lines "uuid" := by
  have hbody : language.bodyCode idsBody idsRequest = .ok (idsLines, some "requestBody") := rfl
  have hnames : ∀ n ∈ idsBody.root.walk, HasNames idsRequest.segments n := by
    have hpackage : IsPlain (model idsRequest.segments
        { name := "ThingsPostRequestBody", synthesized := true }).name := by decide
    have hitem : IsPlain "uuid" := by decide
    exact List.forall_mem_cons.2 ⟨hpackage, List.forall_mem_singleton.2
      (List.forall_mem_singleton.2 hitem)⟩
  obtain ⟨lines, hlines⟩ := Imports.exists_resolve_none idsRequest language (some idsBody)
  obtain ⟨-, huuid, -, hlists⟩ := body_packages_imported idsRequest idsBody idsLines lines
    (some "requestBody") none hbody hlines hnames
  refine ⟨hbody, hnames, lines, hlines, hlists (some .guid) [] ?_, fun himported => ?_⟩
  · exact List.mem_cons_of_mem _ (List.mem_singleton_self _)
  · obtain ⟨v, hv⟩ := huuid.1 himported
    have hnone : ∀ n ∈ idsBody.root.walk, n ≠ .guid v :=
      List.forall_mem_cons.2 ⟨nofun, List.forall_mem_singleton.2 nofun⟩
    exact hnone _ hv rfl

end Go

end ApiSnippets
