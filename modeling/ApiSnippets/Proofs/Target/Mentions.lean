import ApiSnippets.Proofs.Code.Origins
import ApiSnippets.Proofs.Code.Qualifiers
import ApiSnippets.Proofs.Target.Go
/-!
# What the lines of a body mention in Go

The names that qualify others in the lines of a statement are packages of the
node that it was written for: of the type of an object, of the element type of a
list, of a literal. Only a setter, which is called on a variable, is read as if
that were a package (`Go.mentions_statement`).
-/

namespace ApiSnippets

namespace Go

open Qualifiers

variable {segments : List PathSegment} {t : TypeRef} {n : BodyNode} {ns : List BodyNode}
variable {text q : String} {item : Option ItemType} {st : Statement} {qs : List String}

/-! ## Packages -/

/-- The packages in the name of an element type. -/
def itemPackages : Option ItemType → List String
  | some (.enum t) => [modelPackage t]
  | some (.object t) => [modelPackage t]
  | some .guid => ["uuid"]
  | some .datetime => ["time"]
  | _ => []

/-- The packages in the code of a node itself. -/
def nodePackages (segments : List PathSegment) : BodyNode → List String
  | .object t _ _ => [(model segments t).name]
  | .array item _ => itemPackages item
  | .guid _ => ["uuid"]
  | .datetime _ .dateTime => ["time"]
  | .enum t _ _ => [modelPackage t]
  | .stream _ => ["base64"]
  | _ => []

/-- That the names of a node, which are written as they are in the description
and in the path, can be read as names. -/
def HasNames (segments : List PathSegment) : BodyNode → Prop
  | .object t _ _ => IsPlain (model segments t).name
  | .array item _ => ∀ q ∈ itemPackages item, IsPlain q
  | .enum t members _ =>
    IsPlain (modelPackage t) ∧ ∀ name ∈ t.shortName :: members, IsRun (Text.upper name)
  | _ => True

/-! ## Pieces of code -/

/-- A text without quotes shows what stands in it. -/
theorem shows_code (text : String) (h : '"' ∉ text.toList) : Shows text (inBare text.toList) :=
  ⟨text.toList, leaves_of_not_mem h, rfl⟩

theorem shows_doubleQuoted (v : String) : Shows (Text.doubleQuoted v) [] :=
  ⟨_, leaves_doubleQuoted v, rfl⟩

theorem isPlain_pascal (name : String) : IsPlain (Naming.pascal name) := by
  refine IsPlain.of_isWordChar fun c hc => .inl ?_
  rw [Naming.pascal, String.toList_ofList] at hc
  exact Naming.isWordChar_of_mem_pascalChars hc

/-- Models and builders live in packages whose names begin with a letter. -/
theorem shows_graph {package member : String} (h : IsPlain ("graph" ++ package))
    (hmember : IsRun member) :
    Shows ("graph" ++ package ++ "." ++ member) ["graph" ++ package] := by
  refine shows_selector h ?_ hmember
  rw [String.toList_append]
  rfl

theorem exists_modelPackage (t : TypeRef) : ∃ package, modelPackage t = "graph" ++ package :=
  ⟨"models" ++ String.join ((Package.modelParts t).map Text.lower), by
    rw [modelPackage, ← String.append_assoc]
    rfl⟩

theorem shows_modelPackage {member : String} (h : IsPlain (modelPackage t))
    (hmember : IsRun member) : Shows (modelPackage t ++ "." ++ member) [modelPackage t] := by
  obtain ⟨package, hpackage⟩ := exists_modelPackage t
  rw [hpackage] at h ⊢
  exact shows_graph h hmember

theorem exists_model_name (segments : List PathSegment) (t : TypeRef) :
    ∃ package, (model segments t).name = "graph" ++ package := by
  unfold model
  split
  · exact ⟨_, rfl⟩
  · exact exists_modelPackage t

theorem shows_numberType (t : NumberType) : Shows (numberType t) [] := by
  obtain ⟨wide, fractional⟩ := t
  cases wide <;> cases fractional <;> exact shows_code _ (by decide)

/-- **An element type shows its packages.** -/
theorem shows_itemType (h : ∀ q ∈ itemPackages item, IsPlain q) :
    Shows (itemType item) (itemPackages item) := by
  rcases item with _ | _ | t | _ | _ | _ | _ | t | t | _
  case some.number => exact shows_numberType t
  case some.enum => exact shows_modelPackage (h _ List.mem_cons_self) (isPlain_pascal _).run
  case some.object =>
    have hable : IsPlain (Package.className t ++ "able") := (isPlain_pascal _).append (by decide)
    have hshows := shows_modelPackage (h _ List.mem_cons_self) hable.run
    rwa [← String.append_assoc] at hshows
  all_goals exact shows_code _ (by decide)

/-! ## Literals -/

theorem shows_enumMember (h : IsPlain (modelPackage t)) {member : String}
    (hmember : IsRun (Text.upper member)) (hshort : IsRun (Text.upper t.shortName)) :
    Shows (enumMember t member) [modelPackage t] := by
  have hline : IsRun "_" := by decide
  have hrun : IsRun (Text.upper member ++ "_" ++ Text.upper t.shortName) :=
    (hmember.append hline).append hshort
  have hshows := shows_modelPackage h hrun
  rwa [← String.append_assoc, ← String.append_assoc] at hshows

/-- **A literal mentions packages of its node only.** -/
theorem shows_literal (hn : HasNames segments n) (h : dialect.literal n = .ok text) :
    ∃ qs, Shows text qs ∧ qs ⊆ nodePackages segments n := by
  have hround : IsGlue "(" ∧ IsGlue ")" := by decide
  have hoctets : ∀ base64, Shows ("[]byte(" ++ Text.doubleQuoted base64 ++ ")") [] := fun base64 =>
    ((shows_code "[]byte" (by decide)).append hround.1
      (shows_doubleQuoted base64)).left hround.2
  cases n with
  | string v =>
    obtain rfl := Except.ok.inj h
    exact ⟨[], shows_doubleQuoted v, List.nil_subset _⟩
  | number v type =>
    obtain ⟨digits, hdigits, hpure⟩ := Outcome.bind_eq_ok.1 h
    obtain rfl := Except.ok.inj hpure
    have hshows := ((shows_numberType type).append hround.1 (shows_digits hdigits)).left hround.2
    exact ⟨[], hshows, List.nil_subset _⟩
  | boolean b =>
    obtain rfl := Except.ok.inj h
    refine ⟨[], ?_, List.nil_subset _⟩
    cases b <;> exact shows_code _ (by decide)
  | guid v =>
    obtain rfl := Except.ok.inj h
    have hshows := ((shows_code "uuid.MustParse" (by decide)).append hround.1
      (shows_doubleQuoted v)).left hround.2
    exact ⟨_, hshows, List.Subset.refl _⟩
  | datetime v temporal =>
    obtain rfl := Except.ok.inj h
    exact ⟨[], shows_doubleQuoted v, List.nil_subset _⟩
  | binary base64 =>
    obtain rfl := Except.ok.inj h
    exact ⟨[], hoctets base64, List.nil_subset _⟩
  | stream octets =>
    obtain rfl := Except.ok.inj h
    exact ⟨[], hoctets _, List.nil_subset _⟩
  | enum t members flags =>
    obtain rfl := Except.ok.inj h
    obtain ⟨hpackage, hruns⟩ := hn
    obtain ⟨hshort, hmembers⟩ := List.forall_mem_cons.1 hruns
    have hall : ∀ s ∈ members.map (enumMember t), Shows s [modelPackage t] := by
      refine List.forall_mem_map.2 fun member hmember => ?_
      exact shows_enumMember hpackage (hmembers member hmember) hshort
    refine ⟨_, shows_intercalate (by decide) hall, fun q hq => ?_⟩
    rw [List.eq_of_mem_replicate hq]
    exact List.mem_singleton_self _
  | null =>
    obtain rfl := Except.ok.inj h
    exact ⟨[], shows_code _ (by decide), List.nil_subset _⟩
  | object t members derived => cases h
  | array item elements => cases h
  | map members => cases h

/-- An operand that stems from some nodes mentions their packages only. -/
theorem shows_operand {op : Operand} (hns : ∀ n ∈ ns, HasNames segments n)
    (hop : op.Stems dialect ns) (hname : ∀ v ∈ op.name?, IsPlain v) :
    ∃ qs, Shows (op.write dialect) qs ∧ qs ⊆ ns.flatMap (nodePackages segments) := by
  cases op with
  | literal text =>
    obtain ⟨n, hn, htext⟩ := hop
    obtain ⟨qs, hqs, hsub⟩ := shows_literal (hns n hn) htext
    exact ⟨qs, hqs, fun q hq => List.mem_flatMap.2 ⟨n, hn, hsub hq⟩⟩
  | named name => exact ⟨[], shows_plain (hname name rfl), List.nil_subset _⟩
  | address name =>
    exact ⟨[], (shows_plain (hname name rfl)).right (m := "&") (by decide), List.nil_subset _⟩

/-! ## Constructors -/

theorem isPlain_with (collection key : String) :
    IsPlain (Naming.pascal collection ++ "With" ++ Naming.pascal key) := by
  have hwith : IsPlain "With" := by decide
  exact ((isPlain_pascal collection).append hwith).append (isPlain_pascal key)

theorem isPlain_firstPart (s : PathSegment) : ∀ p ∈ (Package.firstPart s).2, IsPlain p := by
  have hitem : IsPlain "Item" := by decide
  unfold Package.firstPart
  split
  · split
    · exact List.forall_mem_singleton.2 hitem
    · simp
  · exact List.forall_mem_singleton.2 (isPlain_with _ _)
  · exact List.forall_mem_singleton.2 (isPlain_with _ _)
  all_goals simp

theorem isPlain_nestedParts (s : PathSegment) : ∀ p ∈ Package.nestedParts s, IsPlain p := by
  have hwords : IsPlain "Item" ∧ IsPlain "Ref" ∧ IsPlain "Graph" := by decide
  refine List.forall_mem_cons.2 ⟨?_, ?_⟩
  · cases s.role with
    | literal name written => exact isPlain_pascal name
    | alternate collection key value => exact isPlain_with collection key
    | keyed collection key => exact hwords.1
    | parameter name => exact hwords.1
    | action name arguments => exact isPlain_pascal name
    | function name arguments => exact isPlain_pascal name
    | reference => exact hwords.2.1
  · intro p hp
    obtain ⟨type, -, rfl⟩ := Option.map_eq_some_iff.1 (Option.mem_toList.1 hp)
    exact hwords.2.2.append (isPlain_pascal _)

/-- The names of nested builders are written in Pascal case. -/
theorem isPlain_nested (segments : List PathSegment) :
    ∀ p ∈ (Package.nested segments).2, IsPlain p := by
  cases segments with
  | nil => simp [Package.nested]
  | cons first more =>
    have hnames : ∀ p ∈ (Package.firstPart first).2 ++ more.flatMap Package.nestedParts,
        IsPlain p := by
      refine List.forall_mem_append.2 ⟨isPlain_firstPart first, fun p hp => ?_⟩
      obtain ⟨s, -, hp⟩ := List.mem_flatMap.1 hp
      exact isPlain_nestedParts s p hp
    rw [Package.nested]
    dsimp only
    split
    · exact List.forall_mem_singleton.2 (isPlain_pascal _)
    · exact hnames

theorem isRun_join {ss : List String} (h : ∀ s ∈ ss, IsPlain s) : IsRun (String.join ss) := by
  intro c hc
  rw [String.toList_join] at hc
  obtain ⟨s, hs, hc⟩ := List.mem_flatMap.1 hc
  exact (h s hs).run c hc

/-- **A constructor shows the package that its type is imported from.** -/
theorem shows_constructor (h : IsPlain (model segments t).name) :
    Shows (constructor segments t) [(model segments t).name] := by
  have hnew : IsRun "New" := by decide
  have hclass : IsRun (Package.className t) := (isPlain_pascal t.shortName).run
  unfold model at h ⊢
  unfold constructor
  split at h
  · next hsynthesized =>
    rw [if_pos hsynthesized, if_pos hsynthesized]
    have hnames : ∀ p ∈ (Package.nested (Package.owner t segments)).2.dropLast, IsPlain p :=
      fun p hp => isPlain_nested _ p (List.mem_of_mem_dropLast hp)
    have hrun : IsRun ("New" ++ String.join
        (Package.nested (Package.owner t segments)).2.dropLast ++ Package.className t) :=
      (hnew.append (isRun_join hnames)).append hclass
    have hshows := shows_graph h hrun
    have htext : ∀ package names class' : String, "graph" ++ package ++ ".New" ++ names ++ class' =
        "graph" ++ package ++ "." ++ ("New" ++ names ++ class') := by
      intro package names class'
      rw [← String.toList_inj]
      simp
    rw [← htext] at hshows
    exact hshows
  · next hsynthesized =>
    rw [if_neg hsynthesized, if_neg hsynthesized]
    have hshows := shows_modelPackage h (hnew.append hclass)
    have htext : modelPackage t ++ "." ++ ("New" ++ Package.className t) =
        modelPackage t ++ ".New" ++ Package.className t := by
      rw [← String.toList_inj]
      simp
    rw [htext] at hshows
    exact hshows

/-! ## Lines -/

/-- That a line calls a setter of a variable. -/
def IsSetter (v line : String) : Prop :=
  ∃ rest, line = v ++ ".Set" ++ rest

theorem shows_indented {line : String} (h : Shows line qs) : Shows (Language.indented line) qs :=
  h.right (m := "\t") (by decide)

/-- The line that opens a list shows the packages of its element type. -/
theorem shows_listHead {name : String} (hname : IsPlain name)
    (hitem : ∀ q ∈ itemPackages item, IsPlain q) :
    Shows (name ++ " := []" ++ itemType item ++ " \x7b") (itemPackages item) := by
  have hglue : IsGlue " := []" ∧ IsGlue " \x7b" := by decide
  exact ((shows_plain hname).append hglue.1 (shows_itemType hitem)).left hglue.2

theorem shows_mapHead {name : String} (hname : IsPlain name) :
    Shows (name ++ " := map[string]interface\x7b\x7d\x7b") [] := by
  have hshows := (shows_plain hname).append (m := " := ") (by decide)
    (shows_code "map[string]interface\x7b\x7d\x7b" (by decide))
  have htext : name ++ " := " ++ "map[string]interface\x7b\x7d\x7b" =
      name ++ " := map[string]interface\x7b\x7d\x7b" := by
    rw [String.append_assoc]
    rfl
  rwa [htext] at hshows

theorem shows_moment {name : String} (v : String) (hname : IsPlain name) :
    Shows (name ++ " , err := time.Parse(time.RFC3339 , " ++ Text.doubleQuoted v ++ ")")
      ["time", "time"] := by
  have hglue : IsGlue " , " ∧ IsGlue ")" := by decide
  have hcall := shows_code "err := time.Parse(time.RFC3339" (by decide)
  have hnames : inBare "err := time.Parse(time.RFC3339".toList = ["time", "time"] := by rfl
  have hshows := (((shows_plain hname).append hglue.1 (hnames ▸ hcall)).append hglue.1
    (shows_doubleQuoted v)).left hglue.2
  have htext : name ++ " , " ++ "err := time.Parse(time.RFC3339" ++ " , " ++ Text.doubleQuoted v ++
      ")" = name ++ " , err := time.Parse(time.RFC3339 , " ++ Text.doubleQuoted v ++ ")" := by
    rw [← String.toList_inj]
    simp
  rwa [htext] at hshows

theorem shows_stream {name : String} (base64 : String) (hname : IsPlain name) :
    Shows (name ++ ", err := base64.StdEncoding.DecodeString(" ++ Text.doubleQuoted base64 ++ ")")
      ["base64"] := by
  have hglue : IsGlue ", " ∧ IsGlue "(" ∧ IsGlue ")" := by decide
  have hcall := shows_code "err := base64.StdEncoding.DecodeString" (by decide)
  have hnames : inBare "err := base64.StdEncoding.DecodeString".toList = ["base64"] := by rfl
  have hshows := (((shows_plain hname).append hglue.1 (hnames ▸ hcall)).append hglue.2.1
    (shows_doubleQuoted base64)).left hglue.2.2
  have htext : name ++ ", " ++ "err := base64.StdEncoding.DecodeString" ++ "(" ++
      Text.doubleQuoted base64 ++ ")" = name ++ ", err := base64.StdEncoding.DecodeString(" ++
        Text.doubleQuoted base64 ++ ")" := by
    rw [← String.toList_inj]
    simp
  rwa [htext] at hshows

/-- A setter shows its variable at most: the name of one may begin with a digit. -/
theorem exists_shows_setter {owner : String} (member : String) (howner : IsPlain owner) :
    ∃ qs, Shows (owner ++ ".Set" ++ Naming.pascal member) qs ∧ qs ⊆ [owner] := by
  have hset : IsPlain "Set" := by decide
  have htext : owner ++ "." ++ ("Set" ++ Naming.pascal member) =
      owner ++ ".Set" ++ Naming.pascal member := by
    rw [← String.toList_inj]
    simp
  have hshows := shows_member howner (hset.append (isPlain_pascal member)).run
  rw [htext] at hshows
  refine ⟨_, hshows, ?_⟩
  split
  · exact List.Subset.refl _
  · exact List.nil_subset _

theorem exists_object {c : BodyNode} (h : c.container? = some (.object t)) :
    ∃ members derived, c = .object t members derived := by
  cases c with
  | object t' members derived =>
    cases h
    exact ⟨members, derived, rfl⟩
  | _ => cases h

theorem exists_array {c : BodyNode} {item : Option ItemType} {size : Nat}
    (h : c.container? = some (.list item size)) : ∃ elements, c = .array item elements := by
  cases c with
  | array item' elements =>
    cases h
    exact ⟨elements, rfl⟩
  | _ => cases h

/-- What the lines of a statement may mention: packages of nodes and, in a
setter, its variable. -/
def Mentions (segments : List PathSegment) (ns : List BodyNode) (st : Statement)
    (line q : String) : Prop :=
  q ∈ ns.flatMap (nodePackages segments) ∨ q ∈ st.used ∧ IsSetter q line

theorem mentions_of_shows {line : String} (h : Shows line qs)
    (hsub : qs ⊆ ns.flatMap (nodePackages segments)) :
    ∀ q ∈ qualifiers line, Mentions segments ns st line q := by
  intro q hq
  rw [h.qualifiers] at hq
  exact .inl (hsub hq)

/-- A line that shows packages of one of the nodes. -/
theorem mentions_of_node {line : String} (hn : n ∈ ns) (h : Shows line qs)
    (hsub : qs ⊆ nodePackages segments n) :
    ∀ q ∈ qualifiers line, Mentions segments ns st line q :=
  mentions_of_shows h fun _ hq => List.mem_flatMap.2 ⟨n, hn, hsub hq⟩

/-- **The lines of a statement mention the packages of its nodes**, apart from
the variables of setters. -/
theorem mentions_statement (hns : ∀ n ∈ ns, HasNames segments n) (hst : st.Stems dialect ns)
    (hcontainer : ∀ c, st.container? = some c → ∃ n ∈ ns, n.container? = some c)
    (hvariables : ∀ v, st.declared? = some v ∨ v ∈ st.used → IsPlain v) :
    ∀ line ∈ statement segments st, ∀ q ∈ qualifiers line, Mentions segments ns st line q := by
  have hgive : IsGlue " := " := by decide
  have hround : IsGlue "(" ∧ IsGlue ")" ∧ IsGlue "()" := by decide
  have hclose : Shows "\x7d" [] := shows_glue (by decide)
  cases st with
  | object name t =>
    obtain ⟨n, hn, htype⟩ := hcontainer _ rfl
    obtain ⟨members, derived, rfl⟩ := exists_object htype
    have hshows := ((shows_plain (hvariables name (.inl rfl))).append hgive
      (shows_constructor (hns _ hn))).left hround.2.2
    exact List.forall_mem_singleton.2 (mentions_of_node hn hshows (List.Subset.refl _))
  | list name item elements =>
    obtain ⟨n, hn, hlist⟩ := hcontainer _ rfl
    obtain ⟨nodes, rfl⟩ := exists_array hlist
    have hhead := shows_listHead (hvariables name (.inl rfl)) (hns _ hn)
    refine List.forall_mem_append.2 ⟨List.forall_mem_append.2 ⟨?_, ?_⟩, ?_⟩
    · exact List.forall_mem_singleton.2 (mentions_of_node hn hhead (List.Subset.refl _))
    · refine List.forall_mem_map.2 fun e he => ?_
      have hname : ∀ v ∈ e.name?, IsPlain v := fun v hv =>
        hvariables v (.inr (List.mem_filterMap.2 ⟨e, he, hv⟩))
      obtain ⟨qs, hqs, hsub⟩ := shows_operand hns (hst e he) hname
      exact mentions_of_shows (shows_indented (hqs.left (m := ",") (by decide))) hsub
    · exact List.forall_mem_singleton.2 (mentions_of_shows hclose (List.nil_subset _))
  | map name entries =>
    refine List.forall_mem_append.2 ⟨List.forall_mem_append.2 ⟨?_, ?_⟩, ?_⟩
    · have hhead := shows_mapHead (hvariables name (.inl rfl))
      exact List.forall_mem_singleton.2 (mentions_of_shows hhead (List.nil_subset _))
    · refine List.forall_mem_map.2 fun e he => ?_
      have hname : ∀ v ∈ e.2.name?, IsPlain v := fun v hv =>
        hvariables v (.inr (List.mem_filterMap.2 ⟨e, he, hv⟩))
      obtain ⟨qs, hqs, hsub⟩ := shows_operand hns (hst e he) hname
      have hentry := ((shows_doubleQuoted e.1).append (m := " : ") (by decide) hqs).left
        (m := ",") (by decide)
      exact mentions_of_shows (shows_indented hentry) hsub
    · exact List.forall_mem_singleton.2 (mentions_of_shows hclose (List.nil_subset _))
  | assign owner member value =>
    have howner := hvariables owner (.inr List.mem_cons_self)
    have hname : ∀ v ∈ value.name?, IsPlain v := fun v hv =>
      hvariables v (.inr (List.mem_cons_of_mem _ (Option.mem_toList.2 hv)))
    obtain ⟨owners, hsetter, howners⟩ := exists_shows_setter member howner
    obtain ⟨qs, hqs, hsub⟩ := shows_operand hns hst hname
    have hline := (hsetter.append hround.1 hqs).left hround.2.1
    refine List.forall_mem_singleton.2 fun q hq => ?_
    rw [hline.qualifiers, List.mem_append] at hq
    -- what the line mentions is its own variable, or a package of the node that it sets
    rcases hq with hq | hq
    · obtain rfl := List.mem_singleton.1 (howners hq)
      refine .inr ⟨List.mem_cons_self,
        Naming.pascal member ++ "(" ++ value.write dialect ++ ")", ?_⟩
      simp only [String.append_assoc]
    · exact .inl (hsub hq)
  | scalar name text =>
    obtain ⟨n, hn, htext⟩ := hst
    obtain ⟨qs, hqs, hsub⟩ := shows_literal (hns n hn) htext
    have hline := (shows_plain (hvariables name (.inl rfl))).append hgive hqs
    exact List.forall_mem_singleton.2 (mentions_of_node hn hline hsub)
  | moment name text =>
    obtain ⟨v, hv, htext⟩ := hst
    obtain rfl := Except.ok.inj htext
    have hline := shows_moment v (hvariables name (.inl rfl))
    exact List.forall_mem_singleton.2 (mentions_of_node hv hline (by simp [nodePackages]))
  | stream name base64 =>
    obtain ⟨octets, hoctets⟩ := hst
    have hline := shows_stream base64 (hvariables name (.inl rfl))
    exact List.forall_mem_singleton.2 (mentions_of_node hoctets hline (List.Subset.refl _))

end Go

end ApiSnippets
