import ApiSnippets.Proofs.Outcome
import ApiSnippets.Proofs.Text.Quoted
import ApiSnippets.Proofs.Text.Shell
import ApiSnippets.Snippet
/-!
# Texts of a request in code

A language writes the texts of a request as literals of one of three kinds
(`Quoting`), each of which is read back as the text it was written for. This
module says where they are: no text of a body is left out by either of the
styles that write bodies (`InitializerStyle.carries_declare`,
`SetterStyle.carries_body`), and every piece of code is a part of the snippet.
-/

namespace ApiSnippets

/-! ## Kinds of literals -/

/-- How the literals of a language for texts are written. -/
inductive Quoting where
  /-- Between double quotes, with the escapes of JSON. -/
  | double
  /-- Between single quotes, where only the quote and the backslash are escaped. -/
  | single
  /-- As a word of a shell. -/
  | word
  deriving DecidableEq, Repr

namespace Quoting

/-- The literal for a text. -/
def write : Quoting → String → String
  | double => Text.doubleQuoted
  | single => Text.singleQuoted
  | word => Text.shellWord

/-- The text of the literal at the start of the characters, and what follows
it. -/
def read? : Quoting → List Char → Option (List Char × List Char)
  | double => Quoted.double?
  | single => Quoted.single?
  | word => Shell.word?

/-- What may follow a literal: a word has to end, quotes end by themselves. -/
def Ends : Quoting → List Char → Prop
  | word, rest => Shell.Ends rest
  | _, _ => True

/-- **What is written for a text is read as that text**, and reading stops where
the literal does. -/
theorem read?_write (q : Quoting) (v : String) {rest : List Char} (h : q.Ends rest) :
    q.read? ((q.write v).toList ++ rest) = some (v.toList, rest) := by
  cases q with
  | double => exact Quoted.double?_doubleQuoted v rest
  | single => exact Quoted.single?_singleQuoted v rest
  | word => exact Shell.word?_shellWord v h

/-- That code holds the literal for a text, in a place where it is read as that
text. -/
def Shows (q : Quoting) (code v : String) : Prop :=
  ∃ before after, code.toList = before ++ ((q.write v).toList ++ after) ∧
    q.read? ((q.write v).toList ++ after) = some (v.toList, after)

theorem shows_append {q : Quoting} {v after : String} (before : String)
    (h : q.Ends after.toList) : q.Shows (before ++ (q.write v ++ after)) v :=
  ⟨before.toList, after.toList, by simp, q.read?_write v h⟩

end Quoting

/-! ## Parts of texts -/

/-- That a text is a part of another one. -/
def Within (part whole : String) : Prop :=
  part.toList <:+: whole.toList

namespace Within

variable {s t u : String} {ss : List String}

theorem refl (s : String) : Within s s :=
  List.infix_rfl

theorem trans (hst : Within s t) (htu : Within t u) : Within s u :=
  List.IsInfix.trans hst htu

theorem left (h : Within s t) (u : String) : Within s (t ++ u) := by
  rw [Within, String.toList_append]
  exact List.IsInfix.trans h (List.prefix_append _ _).isInfix

theorem right (h : Within s t) (u : String) : Within s (u ++ t) := by
  rw [Within, String.toList_append]
  exact List.IsInfix.trans h (List.suffix_append _ _).isInfix

theorem between (h : Within s t) (u v : String) : Within s (u ++ t ++ v) :=
  (h.right u).left v

theorem intercalate {sep : String} (ht : t ∈ ss) (h : Within s t) :
    Within s (String.intercalate sep ss) := by
  induction ss with
  | nil => cases ht
  | cons u ss ih =>
    cases ss with
    | nil =>
      obtain rfl := List.mem_singleton.1 ht
      rwa [String.intercalate_singleton]
    | cons v ss =>
      rw [String.intercalate_cons_cons]
      rcases List.mem_cons.1 ht with rfl | ht
      · exact (h.left sep).left _
      · exact (ih ht).right _

/-- A line of a block of a snippet. -/
theorem ofBlocks {block : List String} {blocks : List (List String)} (hblock : block ∈ blocks)
    (ht : t ∈ block) (h : Within s t) : Within s (Snippet.ofBlocks blocks) := by
  have hfull : block ∈ blocks.filter fun b => !b.isEmpty := by
    cases block with
    | nil => cases ht
    | cons line lines => simpa using hblock
  exact (Within.intercalate (List.mem_map_of_mem hfull) (Within.intercalate ht h)).left "\n"

end Within

/-- Between quotes, a literal shows its text wherever it is. -/
theorem Quoting.shows_of_within {q : Quoting} (hq : q ≠ .word) {code v : String}
    (h : Within (q.write v) code) : q.Shows code v := by
  obtain ⟨before, after, hcode⟩ := h
  refine ⟨before, after, by rw [← hcode, List.append_assoc], q.read?_write v ?_⟩
  cases q with
  | word => exact absurd rfl hq
  | double | single => trivial

/-! ## Texts of a body -/

/-- The texts of a node itself: those of a plain value that is written as a text,
and the keys of a map. -/
def BodyNode.texts : BodyNode → List String
  | string v => [v]
  | guid v => [v]
  | datetime v _ => [v]
  | binary base64 => [base64]
  | map members => members.map Prod.fst
  | _ => []

variable {d : Dialect} {n : BodyNode} {ns ms : List BodyNode} {ps qs : List String}

namespace Dialect

/-- A dialect whose literals hold the literals of the texts they are made
from. -/
structure Quotes (d : Dialect) : Prop where
  guid : ∀ v, Within (d.text v) (d.guid v)
  moment : ∀ t v, Within (d.text v) (d.moment t v)
  binary : ∀ base64, Within (d.text base64) (d.binary base64)

/-- That the texts of some nodes are in some pieces of code. -/
def Carries (d : Dialect) (ns : List BodyNode) (ps : List String) : Prop :=
  ∀ n ∈ ns, ∀ v ∈ n.texts, ∃ p ∈ ps, Within (d.text v) p

theorem carries_nil : d.Carries [] ps := by
  intro n hn
  cases hn

theorem Carries.mono (h : d.Carries ns ps) (hsub : ps ⊆ qs) : d.Carries ns qs := by
  intro n hn v hv
  obtain ⟨p, hp, hwithin⟩ := h n hn v hv
  exact ⟨p, hsub hp, hwithin⟩

theorem Carries.append (hns : d.Carries ns ps) (hms : d.Carries ms ps) :
    d.Carries (ns ++ ms) ps := by
  intro n hn
  rcases List.mem_append.1 hn with hn | hn
  · exact hns n hn
  · exact hms n hn

/-- Two sequences of pieces, each behind the other's. -/
theorem Carries.interleave {ps' qs' : List String} (hns : d.Carries ns (ps ++ ps'))
    (hms : d.Carries ms (qs ++ qs')) : d.Carries (ns ++ ms) (ps ++ qs ++ (ps' ++ qs')) := by
  refine (hns.mono fun p hp => ?_).append (hms.mono fun p hp => ?_)
  all_goals
    simp only [List.mem_append] at hp ⊢
    tauto

/-- A node without texts of its own. -/
theorem Carries.cons (hn : n.texts = []) (h : d.Carries ns ps) : d.Carries (n :: ns) ps := by
  intro m hm
  rcases List.mem_cons.1 hm with rfl | hm
  · simp [hn]
  · exact h m hm

/-- A literal holds the text of its node. -/
theorem Quotes.literal (hd : d.Quotes) (hn : n.isContainer = false) {text : String}
    (h : d.literal n = .ok text) : d.Carries n.walk [text] := by
  rw [BodyNode.walk_of_not_isContainer hn]
  intro m hm v hv
  obtain rfl := List.mem_singleton.1 hm
  refine ⟨text, List.mem_singleton_self _, ?_⟩
  cases m with
  | string w =>
    obtain rfl := List.mem_singleton.1 hv
    cases h
    exact Within.refl _
  | guid w =>
    obtain rfl := List.mem_singleton.1 hv
    cases h
    exact hd.guid v
  | datetime w t =>
    obtain rfl := List.mem_singleton.1 hv
    cases h
    exact hd.moment t v
  | binary w =>
    obtain rfl := List.mem_singleton.1 hv
    cases h
    exact hd.binary v
  | map members => cases hn
  | number _ _ | boolean _ | stream _ | enum _ _ _ | null | object _ _ _ | array _ _ => cases hv

end Dialect

/-! ## Nested expressions -/

/-- The texts of lines. -/
def Line.texts (ls : List Line) : List String :=
  ls.map Line.text

theorem Expression.memberLines_subset (head : String) (more : List String)
    (members : List (String × Expression)) (close : String) (indent : Nat) (start ending : String) :
    Line.texts (memberLines (indent + 1) members) ⊆
      Line.texts ((group head more members close).lines indent start ending) := by
  refine List.map_subset _ fun l hl => ?_
  rw [lines]
  exact List.mem_append_left _ (List.mem_append_right _ hl)

theorem Expression.first_subset (start : String) (e : Expression)
    (members : List (String × Expression)) (indent : Nat) :
    Line.texts (e.lines indent start ",") ⊆
      Line.texts (memberLines indent ((start, e) :: members)) :=
  List.map_subset _ (List.subset_append_left _ _)

theorem Expression.rest_subset (start : String) (e : Expression)
    (members : List (String × Expression)) (indent : Nat) :
    Line.texts (memberLines indent members) ⊆
      Line.texts (memberLines indent ((start, e) :: members)) :=
  List.map_subset _ (List.subset_append_right _ _)

/-- An expression is written behind what stands before it. -/
theorem Expression.exists_line_start (e : Expression) (indent : Nat) (start ending : String) :
    ∃ p ∈ Line.texts (e.lines indent start ending), Within start p := by
  cases e with
  | leaf text =>
    refine ⟨start ++ text ++ ending, ?_, ((Within.refl start).left text).left ending⟩
    simp [lines, Line.texts]
  | group head more members close =>
    refine ⟨start ++ head, ?_, (Within.refl start).left head⟩
    simp [lines, Line.texts]

namespace InitializerStyle

variable {s : InitializerStyle}

/-- A leaf is one line with its literal. -/
theorem carries_leaf (hd : d.Quotes) (hn : n.isContainer = false) {text : String}
    (h : d.literal n = .ok text) (indent : Nat) (start ending : String) :
    d.Carries n.walk (Line.texts ((Expression.leaf text).lines indent start ending)) := by
  intro m hm v hv
  obtain ⟨p, hp, hwithin⟩ := hd.literal hn h m hm v hv
  obtain rfl := List.mem_singleton.1 hp
  refine ⟨start ++ p ++ ending, ?_, hwithin.between start ending⟩
  simp [Expression.lines, Line.texts]

mutual

/-- **The lines of an expression carry its texts**, wherever it stands. -/
theorem carries_express (hd : d.Quotes) (hs : ∀ key, Within (d.text key) (s.entry key)) :
    ∀ (n : BodyNode) (e : Expression), express d s n = .ok e → ∀ indent start ending,
      d.Carries n.walk (Line.texts (e.lines indent start ending))
  | .object type members derived, e, h, indent, start, ending => by
    obtain ⟨ms, hms, h⟩ := Outcome.bind_eq_ok.1 h
    cases Outcome.pure_eq_ok.1 h
    obtain ⟨hmembers, -⟩ := carries_expressMembers hd hs members ms s.field hms (indent + 1)
    exact (hmembers.mono (Expression.memberLines_subset _ _ _ _ _ _ _)).cons rfl
  | .array item [], e, h, indent, start, ending => by
    rw [BodyNode.walk, BodyNode.walkAll]
    exact Dialect.carries_nil.cons rfl
  | .array item (n :: ns), e, h, indent, start, ending => by
    obtain ⟨first, hfirst, h⟩ := Outcome.bind_eq_ok.1 h
    obtain ⟨rest, hrest, h⟩ := Outcome.bind_eq_ok.1 h
    cases Outcome.pure_eq_ok.1 h
    -- only a list with elements is a group, so the first one stands apart
    have hn := carries_express hd hs n first hfirst (indent + 1) "" ","
    have hns := carries_expressAll hd hs ns rest hrest (indent + 1)
    have helements := (hn.mono (Expression.first_subset "" first rest _)).append
      (hns.mono (Expression.rest_subset "" first rest _))
    rw [BodyNode.walk, BodyNode.walkAll]
    exact (helements.mono (Expression.memberLines_subset _ _ _ _ _ _ _)).cons rfl
  | .map members, e, h, indent, start, ending => by
    obtain ⟨ms, hms, h⟩ := Outcome.bind_eq_ok.1 h
    cases Outcome.pure_eq_ok.1 h
    obtain ⟨hmembers, hkeys⟩ := carries_expressMembers hd hs members ms s.entry hms (indent + 1)
    have hsub := Expression.memberLines_subset s.mapHead.1 s.mapHead.2 ms s.mapEnd indent start
      ending
    rw [BodyNode.walk]
    intro m hm v hv
    rcases List.mem_cons.1 hm with rfl | hm
    · -- the keys stand before their values
      obtain ⟨member, hmember, rfl⟩ := List.mem_map.1 hv
      obtain ⟨p, hp, hwithin⟩ := hkeys member hmember
      exact ⟨p, hsub hp, (hs member.1).trans hwithin⟩
    · exact hmembers.mono hsub m hm v hv
  | .string _, e, h, _, _, _ | .number _ _, e, h, _, _, _ | .boolean _, e, h, _, _, _
  | .guid _, e, h, _, _, _ | .datetime _ _, e, h, _, _, _ | .binary _, e, h, _, _, _
  | .stream _, e, h, _, _, _ | .enum _ _ _, e, h, _, _, _ | .null, e, h, _, _, _ => by
    obtain ⟨text, htext, h⟩ := Outcome.bind_eq_ok.1 h
    cases Outcome.pure_eq_ok.1 h
    exact carries_leaf hd rfl htext _ _ _

theorem carries_expressAll (hd : d.Quotes) (hs : ∀ key, Within (d.text key) (s.entry key)) :
    ∀ (ns : List BodyNode) (es : List (String × Expression)), expressAll d s ns = .ok es →
      ∀ indent, d.Carries (BodyNode.walkAll ns) (Line.texts (Expression.memberLines indent es))
  | [], es, h, indent => by
    rw [BodyNode.walkAll]
    exact Dialect.carries_nil
  | n :: ns, es, h, indent => by
    obtain ⟨e, he, h⟩ := Outcome.bind_eq_ok.1 h
    obtain ⟨rest, hrest, h⟩ := Outcome.bind_eq_ok.1 h
    cases Outcome.pure_eq_ok.1 h
    have hn := carries_express hd hs n e he indent "" ","
    have hns := carries_expressAll hd hs ns rest hrest indent
    rw [BodyNode.walkAll]
    exact (hn.mono (Expression.first_subset "" e rest indent)).append
      (hns.mono (Expression.rest_subset "" e rest indent))

/-- Members carry their texts, and what their names put before them. -/
theorem carries_expressMembers (hd : d.Quotes) (hs : ∀ key, Within (d.text key) (s.entry key)) :
    ∀ (ms : List (String × BodyNode)) (es : List (String × Expression)) (start : String → String),
      expressMembers d s start ms = .ok es → ∀ indent,
        d.Carries (BodyNode.walkMembers ms) (Line.texts (Expression.memberLines indent es)) ∧
          ∀ m ∈ ms, ∃ p ∈ Line.texts (Expression.memberLines indent es), Within (start m.1) p
  | [], es, start, h, indent => by
    rw [BodyNode.walkMembers]
    exact ⟨Dialect.carries_nil, by simp⟩
  | (name, n) :: ms, es, start, h, indent => by
    obtain ⟨e, he, h⟩ := Outcome.bind_eq_ok.1 h
    obtain ⟨rest, hrest, h⟩ := Outcome.bind_eq_ok.1 h
    cases Outcome.pure_eq_ok.1 h
    have hn := carries_express hd hs n e he indent (start name) ","
    obtain ⟨hms, hnames⟩ := carries_expressMembers hd hs ms rest start hrest indent
    have hfirst := Expression.first_subset (start name) e rest indent
    have hmore := Expression.rest_subset (start name) e rest indent
    rw [BodyNode.walkMembers]
    refine ⟨(hn.mono hfirst).append (hms.mono hmore), fun m hm => ?_⟩
    rcases List.mem_cons.1 hm with rfl | hm
    · obtain ⟨p, hp, hwithin⟩ := e.exists_line_start indent (start name) ","
      exact ⟨p, hfirst hp, hwithin⟩
    · obtain ⟨p, hp, hwithin⟩ := hnames m hm
      exact ⟨p, hmore hp, hwithin⟩

end

/-- **A declaration carries the texts of its body.** -/
theorem carries_declare (hd : d.Quotes) (hs : ∀ key, Within (d.text key) (s.entry key))
    {name : String} {ls : List Line} (h : s.declare d name n = .ok ls) :
    d.Carries n.walk (ls.map Line.write) := by
  obtain ⟨e, he, h⟩ := Outcome.bind_eq_ok.1 h
  cases Outcome.pure_eq_ok.1 h
  intro m hm v hv
  obtain ⟨p, hp, hwithin⟩ := carries_express hd hs n e he 0 _ _ m hm v hv
  obtain ⟨line, hline, rfl⟩ := List.mem_map.1 hp
  exact ⟨line.write, List.mem_map_of_mem hline, hwithin.right _⟩

end InitializerStyle

/-! ## Statements -/

/-- The pieces of code in a statement that are literals, or may be. -/
def Statement.pieces (d : Dialect) : Statement → List String
  | .list _ _ elements => elements.map fun e => e.write d
  | .map _ entries => entries.map (fun e => d.text e.1) ++ entries.map fun e => e.2.write d
  | .assign _ _ value => [value.write d]
  | .scalar _ text => [text]
  | .moment _ text => [text]
  | _ => []

theorem Statement.exists_entry {name p : String} {entries : List (String × Operand)}
    (h : p ∈ Statement.pieces d (.map name entries)) :
    ∃ e ∈ entries, p ∈ [d.text e.1, e.2.write d] := by
  rcases List.mem_append.1 h with h | h
  · obtain ⟨e, he, rfl⟩ := List.mem_map.1 h
    exact ⟨e, he, List.mem_cons_self⟩
  · obtain ⟨e, he, rfl⟩ := List.mem_map.1 h
    exact ⟨e, he, List.mem_cons_of_mem _ (List.mem_singleton_self _)⟩

namespace SetterStyle

variable {s : SetterStyle}

/-- The pieces of code in statements. -/
def pieces (d : Dialect) (ss : List Statement) : List String :=
  ss.flatMap (Statement.pieces d)

theorem pieces_append (ss ts : List Statement) : pieces d (ss ++ ts) = pieces d ss ++ pieces d ts :=
  List.flatMap_append

theorem pieces_cons (st : Statement) (ss : List Statement) :
    pieces d (st :: ss) = st.pieces d ++ pieces d ss :=
  List.flatMap_cons

/-- A plain value is in its operand, or in the statement that binds it. -/
theorem carries_scalarOperand (hd : d.Quotes) (hn : n.isContainer = false) {taken : List String}
    {name : String} {ss : List Statement} {operand : Operand} {taken' : List String}
    (h : scalarOperand d s taken name n = .ok (ss, operand, taken')) :
    d.Carries n.walk (pieces d ss ++ [operand.write d]) := by
  obtain ⟨text, htext, h⟩ := Outcome.bind_eq_ok.1 h
  refine (hd.literal hn htext).mono fun p hp => ?_
  obtain rfl := List.mem_singleton.1 hp
  -- a style may bind a value before it is used
  split at h <;> cases Outcome.pure_eq_ok.1 h
  · have hbound : ∀ var, pieces d [bindScalar var p n] = [p] := by
      intro var
      unfold bindScalar
      split <;> rfl
    rw [hbound]
    exact List.mem_append_left _ hp
  · exact List.mem_append_right _ hp

mutual

/-- **The statements of a container carry its texts.** -/
theorem carries_declare (hd : d.Quotes) :
    ∀ (n : BodyNode) (name : String) (taken : List String) (ss : List Statement)
      (taken' : List String), n.isContainer = true →
      declare d s name taken n = .ok (ss, taken') → d.Carries n.walk (pieces d ss)
  | .object type members _, name, taken, ss, taken', _, h => by
    obtain ⟨⟨ss, taken⟩, hms, h⟩ := Outcome.bind_eq_ok.1 h
    cases Outcome.pure_eq_ok.1 h
    have hmembers := carries_assignAll hd members name _ _ _ hms
    rw [BodyNode.walk]
    exact hmembers.cons rfl
  | .array item elements, name, taken, ss, taken', _, h => by
    obtain ⟨⟨ss, operands, taken⟩, hns, h⟩ := Outcome.bind_eq_ok.1 h
    cases Outcome.pure_eq_ok.1 h
    have helements := carries_operandAll hd elements _ _ _ _ hns
    have hlist : pieces d [.list name item operands] = operands.map fun e => e.write d :=
      List.append_nil _
    rw [BodyNode.walk, pieces_append, hlist]
    exact helements.cons rfl
  | .map members, name, taken, ss, taken', _, h => by
    obtain ⟨⟨ss, entries, taken⟩, hms, h⟩ := Outcome.bind_eq_ok.1 h
    cases Outcome.pure_eq_ok.1 h
    obtain ⟨hmembers, hkeys⟩ := carries_entryAll hd members _ _ _ _ hms
    have hmap : pieces d [.map name entries] =
        (entries.map Prod.fst).map d.text ++ entries.map fun e => e.2.write d := by
      simp [pieces, Statement.pieces]
    rw [BodyNode.walk, pieces_append, hmap, hkeys]
    intro m hm v hv
    rcases List.mem_cons.1 hm with rfl | hm
    · -- the keys stand in the statement of the map itself
      have hmem := List.mem_map_of_mem (f := d.text) hv
      exact ⟨_, List.mem_append_right _ (List.mem_append_left _ hmem), Within.refl _⟩
    · refine hmembers.mono (fun p hp => ?_) m hm v hv
      rcases List.mem_append.1 hp with hp | hp
      · exact List.mem_append_left _ hp
      · exact List.mem_append_right _ (List.mem_append_right _ hp)
  | .string _, _, _, _, _, hn, _ | .number _ _, _, _, _, _, hn, _ | .boolean _, _, _, _, _, hn, _
  | .guid _, _, _, _, _, hn, _ | .datetime _ _, _, _, _, _, hn, _ | .binary _, _, _, _, _, hn, _
  | .stream _, _, _, _, _, hn, _ | .enum _ _ _, _, _, _, _, hn, _ | .null, _, _, _, _, hn, _ =>
    absurd hn Bool.false_ne_true

theorem carries_assignAll (hd : d.Quotes) :
    ∀ (ms : List (String × BodyNode)) (owner : String) (taken : List String)
      (ss : List Statement) (taken' : List String),
      assignAll d s owner taken ms = .ok (ss, taken') →
        d.Carries (BodyNode.walkMembers ms) (pieces d ss)
  | [], owner, taken, ss, taken', h => by
    rw [BodyNode.walkMembers]
    exact Dialect.carries_nil
  | (member, n) :: ms, owner, taken, ss, taken', h => by
    rw [assignAll] at h
    rw [BodyNode.walkMembers]
    split at h
    · next hn =>
      obtain ⟨⟨before, taken₁⟩, hbefore, h⟩ := Outcome.bind_eq_ok.1 h
      obtain ⟨⟨rest, taken₂⟩, hrest, h⟩ := Outcome.bind_eq_ok.1 h
      cases Outcome.pure_eq_ok.1 h
      have hfirst := carries_declare hd n _ _ _ _ hn hbefore
      have hmore := carries_assignAll hd ms owner _ _ _ hrest
      rw [pieces_append, pieces_cons]
      refine (hfirst.mono (List.subset_append_left _ _)).append (hmore.mono ?_)
      exact List.Subset.trans (List.subset_append_right _ _) (List.subset_append_right _ _)
    · next hn =>
      obtain ⟨⟨before, operand, taken₁⟩, hbefore, h⟩ := Outcome.bind_eq_ok.1 h
      obtain ⟨⟨rest, taken₂⟩, hrest, h⟩ := Outcome.bind_eq_ok.1 h
      cases Outcome.pure_eq_ok.1 h
      have hfirst := carries_scalarOperand hd (by simpa using hn) hbefore
      have hmore := carries_assignAll hd ms owner _ _ _ hrest
      rw [pieces_append, pieces_cons, ← List.append_assoc]
      exact (hfirst.mono (List.subset_append_left _ _)).append
        (hmore.mono (List.subset_append_right _ _))

theorem carries_operandAll (hd : d.Quotes) :
    ∀ (ns : List BodyNode) (taken : List String) (ss : List Statement) (operands : List Operand)
      (taken' : List String), operandAll d s taken ns = .ok (ss, operands, taken') →
        d.Carries (BodyNode.walkAll ns) (pieces d ss ++ operands.map fun e => e.write d)
  | [], taken, ss, operands, taken', h => by
    rw [BodyNode.walkAll]
    exact Dialect.carries_nil
  | n :: ns, taken, ss, operands, taken', h => by
    rw [operandAll] at h
    rw [BodyNode.walkAll]
    split at h
    · next hn =>
      obtain ⟨⟨before, taken₁⟩, hbefore, h⟩ := Outcome.bind_eq_ok.1 h
      obtain ⟨⟨rest, more, taken₂⟩, hrest, h⟩ := Outcome.bind_eq_ok.1 h
      cases Outcome.pure_eq_ok.1 h
      have hfirst := carries_declare hd n _ _ _ _ hn hbefore
      have hmore := carries_operandAll hd ns _ _ _ _ hrest
      rw [pieces_append]
      exact (hfirst.mono (List.subset_append_left _ [_])).interleave hmore
    · next hn =>
      obtain ⟨text, htext, h⟩ := Outcome.bind_eq_ok.1 h
      obtain ⟨⟨rest, more, taken₂⟩, hrest, h⟩ := Outcome.bind_eq_ok.1 h
      cases Outcome.pure_eq_ok.1 h
      have hfirst : d.Carries n.walk ([] ++ [text]) := hd.literal (by simpa using hn) htext
      have hmore := carries_operandAll hd ns _ _ _ _ hrest
      exact hfirst.interleave hmore

/-- The entries of a map have its keys, in their order. -/
theorem carries_entryAll (hd : d.Quotes) :
    ∀ (ms : List (String × BodyNode)) (taken : List String) (ss : List Statement)
      (entries : List (String × Operand)) (taken' : List String),
      entryAll d s taken ms = .ok (ss, entries, taken') →
        d.Carries (BodyNode.walkMembers ms) (pieces d ss ++ entries.map fun e => e.2.write d) ∧
          entries.map Prod.fst = ms.map Prod.fst
  | [], taken, ss, entries, taken', h => by
    cases h
    rw [BodyNode.walkMembers]
    exact ⟨Dialect.carries_nil, rfl⟩
  | (key, n) :: ms, taken, ss, entries, taken', h => by
    rw [entryAll] at h
    rw [BodyNode.walkMembers]
    split at h
    · next hn =>
      obtain ⟨⟨before, taken₁⟩, hbefore, h⟩ := Outcome.bind_eq_ok.1 h
      obtain ⟨⟨rest, more, taken₂⟩, hrest, h⟩ := Outcome.bind_eq_ok.1 h
      cases Outcome.pure_eq_ok.1 h
      have hfirst := carries_declare hd n _ _ _ _ hn hbefore
      obtain ⟨hmore, hkeys⟩ := carries_entryAll hd ms _ _ _ _ hrest
      rw [pieces_append]
      refine ⟨(hfirst.mono (List.subset_append_left _ [_])).interleave hmore, ?_⟩
      rw [List.map_cons, List.map_cons, hkeys]
    · next hn =>
      obtain ⟨text, htext, h⟩ := Outcome.bind_eq_ok.1 h
      obtain ⟨⟨rest, more, taken₂⟩, hrest, h⟩ := Outcome.bind_eq_ok.1 h
      cases Outcome.pure_eq_ok.1 h
      have hfirst : d.Carries n.walk ([] ++ [text]) := hd.literal (by simpa using hn) htext
      obtain ⟨hmore, hkeys⟩ := carries_entryAll hd ms _ _ _ _ hrest
      refine ⟨hfirst.interleave hmore, ?_⟩
      rw [List.map_cons, List.map_cons, hkeys]

end

/-- **The statements of a body and its operand carry its texts.** -/
theorem carries_body (hd : d.Quotes) {ss : List Statement} {operand : Operand}
    (h : s.body d n = .ok (ss, operand)) :
    d.Carries n.walk (pieces d ss ++ [operand.write d]) := by
  unfold body at h
  split at h
  · next octets =>
    have hwalk : (BodyNode.stream octets).walk = [.stream octets] := rfl
    rw [hwalk]
    exact Dialect.carries_nil.cons rfl
  · split at h
    · next hn =>
      obtain ⟨⟨ss, taken⟩, hss, h⟩ := Outcome.bind_eq_ok.1 h
      cases Outcome.pure_eq_ok.1 h
      exact (carries_declare hd n _ _ _ _ hn hss).mono (List.subset_append_left _ _)
    · next hn =>
      obtain ⟨text, htext, h⟩ := Outcome.bind_eq_ok.1 h
      cases Outcome.pure_eq_ok.1 h
      exact hd.literal (by simpa using hn) htext

end SetterStyle

/-! ## Languages -/

/-- The texts of an option that are written as literals. -/
def OptionValue.texts : OptionValue → List String
  | list items => items
  | text s => [s]
  | _ => []

theorem Dialect.within_optionValue {value : OptionValue} {v : String} (hv : v ∈ value.texts)
    (opening sep close : String) :
    Within (d.text v) (d.optionValue (d.texts opening sep close) value) := by
  cases value with
  | list items =>
    have hitem : d.text v ∈ items.map d.text := List.mem_map_of_mem hv
    exact (Within.intercalate hitem (.refl _)).between opening close
  | text s =>
    obtain rfl := List.mem_singleton.1 hv
    exact .refl _
  | flag _ | int _ | num _ => cases hv

namespace Language

variable {l : Language} {q : Quoting} {r : ResolvedRequest} {g : BodyGraph}

/-- A language that writes bodies itself, and the texts of bodies and of the
configuration of a call as literals of one kind. -/
structure Quotes (l : Language) (q : Quoting) : Prop where
  text : l.dialect.text = q.write
  literal : l.dialect.Quotes
  body : (∃ s, l.body = .initializer s ∧ ∀ key, Within (l.dialect.text key) (s.entry key)) ∨
    ∃ s, l.body = .setter s ∧ ∀ segments st, ∀ p ∈ Statement.pieces l.dialect st,
      ∃ line ∈ s.write segments st, Within p line
  headers : ∀ r, ∀ h ∈ r.headers, ∀ t ∈ [l.dialect.text h.name, l.dialect.text h.value],
    ∃ p ∈ (l.configuration r).1 ++ (l.configuration r).2.toList, Within t p
  query : ∀ r, ∀ o ∈ r.query, ∀ v ∈ o.value.texts,
    ∃ p ∈ (l.configuration r).1 ++ (l.configuration r).2.toList, Within (l.dialect.text v) p
  keys : l.dialect.takesArguments = true
  arguments : ∀ body configuration : Option String, ∀ p ∈ body.toList ++ configuration.toList,
    p ≠ "" → p ∈ l.arguments body configuration
  call : ∀ chain arguments r, ∀ p ∈ chain :: arguments, Within p (l.call chain arguments r)

/-- **The code of a body carries its texts**, in both styles. -/
theorem Quotes.carries_bodyCode (hl : l.Quotes q) {lines : List String} {argument : Option String}
    (h : l.bodyCode g r = .ok (lines, argument)) :
    l.dialect.Carries g.root.walk (lines ++ argument.toList) := by
  rcases hl.body with ⟨s, hs, hentry⟩ | ⟨s, hs, hwrite⟩
  · rw [bodyCode, hs] at h
    dsimp only at h
    split at h
    · next octets hroot =>
      have hwalk : g.root.walk = [.stream octets] := by rw [hroot]; rfl
      rw [hwalk]
      exact Dialect.carries_nil.cons rfl
    · obtain ⟨ls, hls, h⟩ := Outcome.bind_eq_ok.1 h
      cases Outcome.pure_eq_ok.1 h
      exact (InitializerStyle.carries_declare hl.literal hentry hls).mono
        (List.subset_append_left _ _)
  · rw [bodyCode, hs] at h
    obtain ⟨⟨ss, operand⟩, hss, h⟩ := Outcome.bind_eq_ok.1 h
    cases Outcome.pure_eq_ok.1 h
    intro n hn v hv
    obtain ⟨p, hp, hwithin⟩ := SetterStyle.carries_body hl.literal hss n hn v hv
    rcases List.mem_append.1 hp with hp | hp
    · -- the piece is in a line of its statement
      obtain ⟨st, hst, hp⟩ := List.mem_flatMap.1 hp
      obtain ⟨line, hline, hpline⟩ := hwrite r.segments st p hp
      exact ⟨line, List.mem_append_left _ (List.mem_flatMap.2 ⟨st, hst, hline⟩),
        hwithin.trans hpline⟩
    · exact ⟨p, List.mem_append_right _ hp, hwithin⟩

/-- The key of an alternate key is an argument of its accessor. -/
theorem Quotes.within_chain (hl : l.Quotes q) {s : PathSegment} (hs : s ∈ r.segments)
    {collection key v : String} (hrole : s.role = .alternate collection key (some v)) :
    Within (l.dialect.text v) (l.dialect.chain r.segments) := by
  have halternate : Within (l.dialect.text v) (l.dialect.segmentAccessors s) := by
    unfold Dialect.segmentAccessors Dialect.roleAccessor
    simp only [hrole, Dialect.alternate, hl.keys, if_true, Option.getD_some]
    refine Within.left ?_ _
    unfold Dialect.call Dialect.step
    refine Within.right ?_ _
    exact (Within.intercalate (List.mem_singleton_self _) (.refl _)).between "(" ")"
  obtain ⟨before, after, hsegments⟩ := List.append_of_mem hs
  rw [Dialect.chain, hsegments, Within, String.toList_join]
  simp only [List.map_append, List.map_cons, List.flatMap_append, List.flatMap_cons]
  exact List.IsInfix.trans halternate ⟨_, _, List.append_assoc _ _ _⟩

/-- The code of a snippet that a text may be in: the lines and the argument for
the body, those for the configuration, and the accessors. -/
def codeOf (l : Language) (r : ResolvedRequest) (part : List String × Option String) :
    List String :=
  let configured := if r.hasConfiguration then l.configuration r else ([], none)
  part.1 ++ part.2.toList ++ (configured.1 ++ configured.2.toList) ++
    [l.dialect.chain r.segments]

/-- **All code is a part of the snippet.** -/
theorem Quotes.within_write (hl : l.Quotes q) {body : Option BodyGraph} {imports : List String}
    {text : String} (h : Snippet.write l r body imports = .ok text) :
    ∃ part, Snippet.bodyPart l r body = .ok part ∧
      ∀ p ∈ l.codeOf r part, ∀ s, Within s p → Within s text := by
  obtain ⟨⟨bodyLines, bodyArgument⟩, hpart, h⟩ := Outcome.bind_eq_ok.1 h
  refine ⟨_, hpart, ?_⟩
  generalize hconf : (if r.hasConfiguration then l.configuration r else ([], none)) = configured
    at h
  obtain ⟨lines, argument⟩ := configured
  have htext : Snippet.ofBlocks [l.prologue, imports, bodyLines, lines,
      [l.call (l.dialect.chain r.segments) (l.arguments bodyArgument argument) r]] = text :=
    Outcome.pure_eq_ok.1 h
  have hlines : ∀ block ∈ [bodyLines, lines], ∀ p ∈ block, ∀ s, Within s p → Within s text := by
    intro block hblock p hp s hs
    rw [← htext]
    have hmem : block ∈ [l.prologue, imports, bodyLines, lines,
        [l.call (l.dialect.chain r.segments) (l.arguments bodyArgument argument) r]] := by
      simp only [List.mem_cons, List.not_mem_nil, or_false] at hblock ⊢
      tauto
    exact Within.ofBlocks hmem hp hs
  have hcall : ∀ p ∈ l.dialect.chain r.segments :: l.arguments bodyArgument argument,
      ∀ s, Within s p → Within s text := by
    intro p hp s hs
    rw [← htext]
    exact Within.ofBlocks (by simp) (List.mem_singleton_self _) (hs.trans (hl.call _ _ r p hp))
  have hargument : ∀ p ∈ bodyArgument.toList ++ argument.toList,
      ∀ s, Within s p → Within s text := by
    intro p hp s hs
    by_cases hempty : p = ""
    · -- an empty argument is left out, and only the empty text is a part of it
      subst hempty
      have hnil : s.toList = [] := List.infix_nil.1 hs
      rw [Within, hnil]
      exact List.nil_infix
    · exact hcall p (List.mem_cons_of_mem _ (hl.arguments _ _ p hp hempty)) s hs
  intro p hp s hs
  simp only [codeOf, hconf, List.mem_append, List.mem_singleton] at hp
  rcases hp with ((hp | hp) | (hp | hp)) | rfl
  · exact hlines bodyLines (by simp) p hp s hs
  · exact hargument p (List.mem_append_left _ hp) s hs
  · exact hlines lines (by simp) p hp s hs
  · exact hargument p (List.mem_append_right _ hp) s hs
  · exact hcall _ List.mem_cons_self s hs

end Language

end ApiSnippets
