import ApiSnippets.Proofs.Body.Alike
import ApiSnippets.Proofs.Code.Imports
import ApiSnippets.Proofs.Code.Literals
import ApiSnippets.Proofs.Code.Scan
/-!
# Code for alike bodies

Requests are alike when they are the same but for texts: those of string nodes in
their bodies, of query options and of headers. The code for them is the same
around the literals of these texts (`Woven`), in either of the styles that write
bodies, and fails for both or for neither. As no constructor reaches into a
literal or out of it, a scan finds the same names of models in both when it does
in the literals alone (`Woven.typeNames`).
-/

namespace ApiSnippets

/-! ## Texts around literals -/

/-- That a scan finds the same names of models in the literals for two texts. -/
def SameNames (q : Quoting) (v v' : String) : Prop :=
  Scan.modelNames false (q.write v).toList = Scan.modelNames false (q.write v').toList

/-- Literals without capital letters have no names in them. -/
theorem sameNames_of_lower {q : Quoting} {v v' : String}
    (h : ∀ c ∈ (q.write v).toList ++ (q.write v').toList, Naming.isUpper c = false) :
    SameNames q v v' := by
  rw [List.forall_mem_append] at h
  rw [SameNames, Scan.modelNames_eq_nil h.1, Scan.modelNames_eq_nil h.2]

/-- That two texts are the same around the literals for related texts. -/
inductive Woven (q : Quoting) (R : String → String → Prop) : String → String → Prop
  | const (s : String) : Woven q R s s
  | literal {v v' : String} : R v v' → Woven q R (q.write v) (q.write v')
  | append {s s' t t' : String} : Woven q R s s' → Woven q R t t' → Woven q R (s ++ t) (s' ++ t')

/-- Woven texts as characters, literal by literal. -/
inductive WovenChars (q : Quoting) (R : String → String → Prop) :
    List Char → List Char → Prop
  | code (cs : List Char) : WovenChars q R cs cs
  | literal {v v' : String} {ds ds' : List Char} (cs : List Char) :
      R v v' → WovenChars q R ds ds' →
      WovenChars q R (cs ++ ((q.write v).toList ++ ds)) (cs ++ ((q.write v').toList ++ ds'))

namespace Quoting

variable {q : Quoting}

/-- A literal is between two quotes of one kind. -/
theorem exists_quotes (hq : q ≠ .word) : ∃ c, Scan.IsQuote c ∧
    ∀ v, ∃ body, (q.write v).toList = c :: (body ++ [c]) := by
  cases q with
  | word => exact absurd rfl hq
  | double =>
    refine ⟨'"', .double, fun v => ⟨v.toList.flatMap Text.escapeDouble, ?_⟩⟩
    simp [write, Text.doubleQuoted, Text.doubleQuotedChars]
  | single =>
    refine ⟨'\'', .single, fun v => ⟨v.toList.flatMap Text.escapeSingle, ?_⟩⟩
    simp [write, Text.singleQuoted]

end Quoting

namespace WovenChars

variable {q : Quoting} {R : String → String → Prop} {cs cs' ds ds' : List Char}

theorem append (h : WovenChars q R cs cs') (hds : WovenChars q R ds ds') :
    WovenChars q R (cs ++ ds) (cs' ++ ds') := by
  induction h with
  | code cs =>
    cases hds with
    | code ds => exact .code _
    | literal more hsame hrest =>
      rw [← List.append_assoc cs more, ← List.append_assoc cs more]
      exact .literal _ hsame hrest
  | literal cs hsame _ ih =>
    simp only [List.append_assoc]
    exact .literal cs hsame ih

/-- **A scan finds the same names of models** in code that is the same around
its literals. -/
theorem modelNames (hq : q ≠ .word) (hR : ∀ v v', R v v' → SameNames q v v')
    (h : WovenChars q R cs cs') (w : Bool) :
    Scan.modelNames w cs = Scan.modelNames w cs' := by
  obtain ⟨c, hc, hquotes⟩ := Quoting.exists_quotes hq
  induction h generalizing w with
  | code cs => rfl
  | @literal v v' ds ds' cs hsame _ ih =>
    obtain ⟨body, hbody⟩ := hquotes v
    obtain ⟨body', hbody'⟩ := hquotes v'
    have hsame := hR _ _ hsame
    rw [SameNames, hbody, hbody'] at hsame
    rw [hbody, hbody', Scan.modelNames_around hc, Scan.modelNames_around hc, hsame, ih]

end WovenChars

namespace Woven

variable {q : Quoting} {R : String → String → Prop} {s s' t t' sep : String} {ss ss' : List String}

theorem chars (h : Woven q R s s') : WovenChars q R s.toList s'.toList := by
  induction h with
  | const s => exact .code _
  | @literal v v' hsame =>
    have hliteral := WovenChars.literal (q := q) [] hsame (.code [])
    rwa [List.nil_append, List.nil_append, List.append_nil, List.append_nil] at hliteral
  | append _ _ ihs iht =>
    rw [String.toList_append, String.toList_append]
    exact ihs.append iht

theorem typeNames (hq : q ≠ .word) (hR : ∀ v v', R v v' → SameNames q v v')
    (h : Woven q R s s') : Scan.typeNames s = Scan.typeNames s' := by
  rw [Scan.typeNames_eq, Scan.typeNames_eq, h.chars.modelNames hq hR]

/-- No literal is empty. -/
theorem eq_empty_iff (hq : q ≠ .word) (h : Woven q R s s') : s = "" ↔ s' = "" := by
  obtain ⟨c, -, hquotes⟩ := Quoting.exists_quotes hq
  have hne (v : String) : q.write v ≠ "" := by
    intro hempty
    obtain ⟨body, hbody⟩ := hquotes v
    rw [hempty] at hbody
    cases hbody
  induction h with
  | const s => exact Iff.rfl
  | literal _ => exact iff_of_false (hne _) (hne _)
  | append _ _ ihs iht =>
    rw [String.append_eq_empty_iff, String.append_eq_empty_iff]
    exact and_congr ihs iht

theorem around (before after : String) (h : Woven q R s s') :
    Woven q R (before ++ s ++ after) (before ++ s' ++ after) :=
  .append (.append (.const before) h) (.const after)

theorem intercalate (h : List.Forall₂ (Woven q R) ss ss') :
    Woven q R (String.intercalate sep ss) (String.intercalate sep ss') := by
  induction h with
  | nil => exact .const _
  | @cons s s' ss ss' hs hss ih =>
    cases hss with
    | nil =>
      rw [String.intercalate_singleton, String.intercalate_singleton]
      exact hs
    | cons ht hts =>
      rw [String.intercalate_cons_cons, String.intercalate_cons_cons]
      exact .append (.append hs (.const sep)) ih

/-- The lines of blocks. -/
theorem ofBlocks {bs bs' : List (List String)}
    (h : List.Forall₂ (List.Forall₂ (Woven q R)) bs bs') :
    Woven q R (Snippet.ofBlocks bs) (Snippet.ofBlocks bs') := by
  have hjoined : List.Forall₂ (Woven q R)
      ((bs.filter fun b => !b.isEmpty).map Language.joined)
      ((bs'.filter fun b => !b.isEmpty).map Language.joined) := by
    induction h with
    | nil => exact .nil
    | cons hb _ ih =>
      cases hb with
      | nil => exact ih
      | cons hline hlines => exact .cons (intercalate (.cons hline hlines)) ih
  exact .append (intercalate hjoined) (.const "\n")

/-- The same lines. -/
theorem lines (ss : List String) : List.Forall₂ (Woven q R) ss ss :=
  List.forall₂_same.2 fun s _ => .const s

/-- Lines one level deeper. -/
theorem indented (h : List.Forall₂ (Woven q R) ss ss') :
    List.Forall₂ (Woven q R) (ss.map Language.indented) (ss'.map Language.indented) := by
  rw [List.forall₂_map_left_iff, List.forall₂_map_right_iff]
  exact h.imp fun _ _ hs => .append (.const _) hs

end Woven

/-! ## Alike nodes -/

namespace BodyNode

variable {q : Quoting} {R : String → String → Prop} {n n' : BodyNode}

theorem Alike.isContainer (h : Alike R n n') : n.isContainer = n'.isContainer := by
  cases h <;> rfl

theorem Alike.eq_stream_iff {bs : Bytes} (h : Alike R n n') : n = stream bs ↔ n' = stream bs := by
  cases h with
  | same n => exact Iff.rfl
  | _ => exact iff_of_false nofun nofun

/-- The literals of alike nodes. -/
theorem Alike.literal {d : Dialect} (hd : d.text = q.write) (h : Alike R n n')
    (hn : n.isContainer = false) : Outcome.Related (Woven q R) (d.literal n) (d.literal n') := by
  cases h with
  | same n => exact .refl Woven.const _
  | string hsame =>
    rw [Dialect.literal, Dialect.literal, hd]
    exact .ok (.literal hsame)
  | object | array | map => cases hn

mutual

/-- Whatever is read of nodes apart from the texts of strings is the same
throughout alike nodes. -/
theorem Alike.flatMap_walk {α : Type} {f : BodyNode → List α}
    (hf : ∀ {m m' : BodyNode}, Alike R m m' → f m = f m') :
    ∀ {n n' : BodyNode}, Alike R n n' → n.walk.flatMap f = n'.walk.flatMap f
  | _, _, .same _ => rfl
  | _, _, .string hsame => by
    simp only [walk, List.flatMap_cons, List.flatMap_nil, hf (.string hsame)]
  | _, _, .object t derived h => by
    rw [walk, walk, List.flatMap_cons, List.flatMap_cons, hf (.object t derived h),
      h.flatMap_walkMembers hf]
  | _, _, .array item h => by
    rw [walk, walk, List.flatMap_cons, List.flatMap_cons, hf (.array item h),
      h.flatMap_walkAll hf]
  | _, _, .map h => by
    rw [walk, walk, List.flatMap_cons, List.flatMap_cons, hf (.map h), h.flatMap_walkMembers hf]

theorem AlikeAll.flatMap_walkAll {α : Type} {f : BodyNode → List α}
    (hf : ∀ {m m' : BodyNode}, Alike R m m' → f m = f m') :
    ∀ {ns ns' : List BodyNode}, AlikeAll R ns ns' →
      (walkAll ns).flatMap f = (walkAll ns').flatMap f
  | _, _, .nil => rfl
  | _, _, .cons h hs => by
    rw [walkAll, walkAll, List.flatMap_append, List.flatMap_append, h.flatMap_walk hf,
      hs.flatMap_walkAll hf]

theorem AlikeMembers.flatMap_walkMembers {α : Type} {f : BodyNode → List α}
    (hf : ∀ {m m' : BodyNode}, Alike R m m' → f m = f m') :
    ∀ {ms ms' : List (String × BodyNode)}, AlikeMembers R ms ms' →
      (walkMembers ms).flatMap f = (walkMembers ms').flatMap f
  | _, _, .nil => rfl
  | _, _, .cons name h hs => by
    rw [walkMembers, walkMembers, List.flatMap_append, List.flatMap_append, h.flatMap_walk hf,
      hs.flatMap_walkMembers hf]

end

end BodyNode

/-! ## Nested expressions -/

/-- Lines at the same level. -/
structure Line.Alike (q : Quoting) (R : String → String → Prop) (l l' : Line) : Prop where
  indent : l.indent = l'.indent
  text : Woven q R l.text l'.text

theorem Line.Alike.write {q : Quoting} {R : String → String → Prop} {l l' : Line}
    (h : l.Alike q R l') :
    Woven q R l.write l'.write := by
  rw [Line.write, Line.write, h.indent]
  exact .append (.const _) h.text

/-- Expressions that are laid out alike. -/
def Expression.Alike (q : Quoting) (R : String → String → Prop) (e e' : Expression) : Prop :=
  ∀ indent start ending, List.Forall₂ (Line.Alike q R) (e.lines indent start ending)
    (e'.lines indent start ending)

namespace Expression

variable {q : Quoting} {R : String → String → Prop} {text text' : String}

theorem alike_same (e : Expression) : Alike q R e e :=
  fun _ _ _ => List.forall₂_same.2 fun _ _ => ⟨rfl, .const _⟩

theorem alike_leaf (h : Woven q R text text') : Alike q R (leaf text) (leaf text') := by
  intro indent start ending
  exact .cons ⟨rfl, h.around start ending⟩ .nil

theorem forall₂_memberLines {ms ms' : List (String × Expression)} {indent : Nat}
    (h : List.Forall₂ (fun m m' => m.1 = m'.1 ∧ Alike q R m.2 m'.2) ms ms') :
    List.Forall₂ (Line.Alike q R) (memberLines indent ms) (memberLines indent ms') := by
  induction h with
  | nil => exact .nil
  | @cons m m' ms ms' hm _ ih =>
    obtain ⟨start, e⟩ := m
    obtain ⟨start', e'⟩ := m'
    obtain ⟨rfl, he⟩ := hm
    exact List.rel_append (he indent start ",") ih

theorem alike_group (head : String) (more : List String) {ms ms' : List (String × Expression)}
    (close : String) (h : List.Forall₂ (fun m m' => m.1 = m'.1 ∧ Alike q R m.2 m'.2) ms ms') :
    Alike q R (group head more ms close) (group head more ms' close) := by
  intro indent start ending
  have hsame (ls : List Line) : List.Forall₂ (Line.Alike q R) ls ls :=
    List.forall₂_same.2 fun _ _ => ⟨rfl, .const _⟩
  rw [lines, lines]
  exact List.rel_append (List.rel_append (hsame _) (forall₂_memberLines h)) (hsame _)

end Expression

namespace InitializerStyle

open BodyNode (Alike AlikeAll AlikeMembers)

variable {q : Quoting} {R : String → String → Prop} {d : Dialect} {s : InitializerStyle}

mutual

/-- **Expressions for alike nodes.** -/
theorem alike_express (hd : d.text = q.write) :
    ∀ {n n' : BodyNode}, Alike R n n' →
      Outcome.Related (Expression.Alike q R) (s.express d n) (s.express d n')
  | _, _, .same n => .refl Expression.alike_same _
  | _, _, .string hsame => by
    have hliteral := (Alike.string hsame).literal hd rfl
    exact hliteral.bind fun _ _ htext => .ok (Expression.alike_leaf htext)
  | _, _, .object t derived h => by
    rw [express, express]
    exact (alike_expressMembers hd s.field h).bind fun _ _ hms =>
      .ok (Expression.alike_group _ _ _ hms)
  | _, _, .array item .nil => .refl Expression.alike_same _
  | _, _, .array item (.cons h hs) => by
    rw [express, express]
    exact (alike_express hd h).bind fun _ _ hfirst => (alike_expressAll hd hs).bind fun _ _ hrest =>
      .ok (Expression.alike_group _ _ _ (.cons ⟨rfl, hfirst⟩ hrest))
  | _, _, .map h => by
    rw [express, express]
    exact (alike_expressMembers hd s.entry h).bind fun _ _ hms =>
      .ok (Expression.alike_group _ _ _ hms)

theorem alike_expressAll (hd : d.text = q.write) :
    ∀ {ns ns' : List BodyNode}, AlikeAll R ns ns' →
      Outcome.Related (List.Forall₂ fun m m' => m.1 = m'.1 ∧ Expression.Alike q R m.2 m'.2)
        (s.expressAll d ns) (s.expressAll d ns')
  | _, _, .nil => .ok .nil
  | _, _, .cons h hs => by
    rw [expressAll, expressAll]
    exact (alike_express hd h).bind fun _ _ he => (alike_expressAll hd hs).bind fun _ _ hes =>
      .ok (.cons ⟨rfl, he⟩ hes)

theorem alike_expressMembers (hd : d.text = q.write) (start : String → String) :
    ∀ {ms ms' : List (String × BodyNode)}, AlikeMembers R ms ms' →
      Outcome.Related (List.Forall₂ fun m m' => m.1 = m'.1 ∧ Expression.Alike q R m.2 m'.2)
        (s.expressMembers d start ms) (s.expressMembers d start ms')
  | _, _, .nil => .ok .nil
  | _, _, .cons name h hs => by
    rw [expressMembers, expressMembers]
    exact (alike_express hd h).bind fun _ _ he =>
      (alike_expressMembers hd start hs).bind fun _ _ hes => .ok (.cons ⟨rfl, he⟩ hes)

end

/-- Declarations of alike bodies. -/
theorem alike_declare (hd : d.text = q.write) {n n' : BodyNode} (h : Alike R n n') (name : String)
    (hstart : s.declaration name n = s.declaration name n') :
    Outcome.Related (List.Forall₂ (Line.Alike q R)) (s.declare d name n) (s.declare d name n') := by
  rw [declare, declare, hstart]
  exact (alike_express hd h).bind fun _ _ he => .ok (he _ _ _)

end InitializerStyle

/-! ## Statements -/

/-- Operands that are the same but for woven literals. -/
inductive Operand.Alike (q : Quoting) (R : String → String → Prop) : Operand → Operand → Prop
  | same (o : Operand) : Alike q R o o
  | literal {text text' : String} :
      Woven q R text text' → Alike q R (.literal text) (.literal text')

theorem Operand.Alike.write {q : Quoting} {R : String → String → Prop} {d : Dialect}
    {o o' : Operand} (h : o.Alike q R o') :
    Woven q R (o.write d) (o'.write d) := by
  cases h with
  | same o => exact .const _
  | literal h => exact h

/-- Statements that are the same but for woven literals. -/
inductive Statement.Alike (q : Quoting) (R : String → String → Prop) : Statement → Statement → Prop
  | same (st : Statement) : Alike q R st st
  | list (name : String) (item : Option ItemType) {os os' : List Operand} :
      List.Forall₂ (Operand.Alike q R) os os' → Alike q R (.list name item os) (.list name item os')
  | map (name : String) {es es' : List (String × Operand)} :
      List.Forall₂ (fun e e' => e.1 = e'.1 ∧ Operand.Alike q R e.2 e'.2) es es' →
      Alike q R (.map name es) (.map name es')
  | assign (owner member : String) {o o' : Operand} :
      Operand.Alike q R o o' → Alike q R (.assign owner member o) (.assign owner member o')
  | scalar (name : String) {text text' : String} :
      Woven q R text text' → Alike q R (.scalar name text) (.scalar name text')
  | moment (name : String) {text text' : String} :
      Woven q R text text' → Alike q R (.moment name text) (.moment name text')

namespace SetterStyle

open BodyNode (Alike AlikeAll AlikeMembers)

variable {q : Quoting} {R : String → String → Prop} {d : Dialect} {s : SetterStyle}
  {n n' : BodyNode}

/-- Statements one by one. -/
abbrev AlikeStatements (q : Quoting) (R : String → String → Prop) :
    List Statement → List Statement → Prop :=
  List.Forall₂ (Statement.Alike q R)

theorem alikeStatements_same (ss : List Statement) : AlikeStatements q R ss ss :=
  List.forall₂_same.2 fun st _ => .same st

/-- Alike statements, and the same names taken. -/
def AlikeBlock (q : Quoting) (R : String → String → Prop)
    (x x' : List Statement × List String) : Prop :=
  AlikeStatements q R x.1 x'.1 ∧ x.2 = x'.2

/-- Alike statements and related values, and the same names taken. -/
def AlikePart (q : Quoting) (R : String → String → Prop) {α : Type} (S : α → α → Prop)
    (x x' : List Statement × α × List String) : Prop :=
  AlikeStatements q R x.1 x'.1 ∧ S x.2.1 x'.2.1 ∧ x.2.2 = x'.2.2

theorem elementHint_of_alike (h : Alike R n n') : elementHint n = elementHint n' := by
  cases h <;> rfl

theorem memberHint_of_alike (h : Alike R n n') (name : String) :
    s.memberHint name n = s.memberHint name n' := by
  cases h <;> rfl

theorem isDirect_of_alike (h : Alike R n n') : isDirect n = isDirect n' := by
  cases h <;> rfl

theorem alike_bindScalar (h : Alike R n n') (name : String) {text text' : String}
    (htext : Woven q R text text') :
    Statement.Alike q R (bindScalar name text n) (bindScalar name text' n') := by
  have hsame : bindScalar name text' n = bindScalar name text' n' := by
    cases h <;> rfl
  rw [← hsame]
  unfold bindScalar
  split
  · exact .moment name htext
  · exact .scalar name htext

theorem alike_scalarOperand (hd : d.text = q.write) (h : Alike R n n')
    (hn : n.isContainer = false) (taken : List String) (name : String) :
    Outcome.Related (AlikePart q R (Operand.Alike q R)) (scalarOperand d s taken name n)
      (scalarOperand d s taken name n') := by
  unfold scalarOperand
  refine (h.literal hd hn).bind fun text text' htext => ?_
  rw [isDirect_of_alike h]
  split
  · exact .ok ⟨.cons (alike_bindScalar h _ htext) .nil, .same _, rfl⟩
  · exact .ok ⟨.nil, .literal htext, rfl⟩

mutual

/-- **Statements for alike containers.** -/
theorem alike_declare (hd : d.text = q.write) (name : String) (taken : List String) :
    ∀ {n n' : BodyNode}, Alike R n n' →
      Outcome.Related (AlikeBlock q R) (s.declare d name taken n) (s.declare d name taken n')
  | _, _, .same n => .refl (fun _ => ⟨alikeStatements_same _, rfl⟩) _
  | _, _, .string _ => .refl (fun _ => ⟨alikeStatements_same _, rfl⟩) _
  | _, _, .object t derived h => by
    rw [declare, declare]
    refine (alike_assignAll hd name taken h).bind ?_
    rintro ⟨ss, taken⟩ ⟨ss', -⟩ ⟨hss, rfl⟩
    exact .ok ⟨.cons (.same _) hss, rfl⟩
  | _, _, .array item h => by
    rw [declare, declare]
    refine (alike_operandAll hd taken h).bind ?_
    rintro ⟨ss, os, taken⟩ ⟨ss', os', -⟩ ⟨hss, hos, rfl⟩
    exact .ok ⟨List.rel_append hss (.cons (.list name item hos) .nil), rfl⟩
  | _, _, .map h => by
    rw [declare, declare]
    refine (alike_entryAll hd taken h).bind ?_
    rintro ⟨ss, es, taken⟩ ⟨ss', es', -⟩ ⟨hss, hes, rfl⟩
    exact .ok ⟨List.rel_append hss (.cons (.map name hes) .nil), rfl⟩

theorem alike_assignAll (hd : d.text = q.write) (owner : String) (taken : List String) :
    ∀ {ms ms' : List (String × BodyNode)}, AlikeMembers R ms ms' →
      Outcome.Related (AlikeBlock q R) (s.assignAll d owner taken ms)
        (s.assignAll d owner taken ms')
  | _, _, .nil => .ok ⟨.nil, rfl⟩
  | (_, n) :: _, (_, n') :: _, .cons member h hs => by
    rw [assignAll, assignAll, ← h.isContainer, ← memberHint_of_alike h]
    cases hn : n.isContainer with
    | true =>
      simp only [if_true]
      refine (alike_declare hd _ _ h).bind ?_
      rintro ⟨ss, taken⟩ ⟨ss', -⟩ ⟨hss, rfl⟩
      refine (alike_assignAll hd owner taken hs).bind ?_
      rintro ⟨more, taken⟩ ⟨more', -⟩ ⟨hmore, rfl⟩
      exact .ok ⟨List.rel_append hss (.cons (.same _) hmore), rfl⟩
    | false =>
      simp only [Bool.false_eq_true, if_false]
      refine (alike_scalarOperand hd h hn taken member).bind ?_
      rintro ⟨ss, o, taken⟩ ⟨ss', o', -⟩ ⟨hss, ho, rfl⟩
      refine (alike_assignAll hd owner taken hs).bind ?_
      rintro ⟨more, taken⟩ ⟨more', -⟩ ⟨hmore, rfl⟩
      exact .ok ⟨List.rel_append hss (.cons (.assign owner member ho) hmore), rfl⟩

theorem alike_operandAll (hd : d.text = q.write) (taken : List String) :
    ∀ {ns ns' : List BodyNode}, AlikeAll R ns ns' →
      Outcome.Related (AlikePart q R (List.Forall₂ (Operand.Alike q R))) (s.operandAll d taken ns)
        (s.operandAll d taken ns')
  | _, _, .nil => .ok ⟨.nil, .nil, rfl⟩
  | n :: _, n' :: _, .cons h hs => by
    rw [operandAll, operandAll, ← h.isContainer, ← elementHint_of_alike h]
    cases hn : n.isContainer with
    | true =>
      simp only [if_true]
      refine (alike_declare hd _ _ h).bind ?_
      rintro ⟨ss, taken⟩ ⟨ss', -⟩ ⟨hss, rfl⟩
      refine (alike_operandAll hd taken hs).bind ?_
      rintro ⟨more, os, taken⟩ ⟨more', os', -⟩ ⟨hmore, hos, rfl⟩
      exact .ok ⟨List.rel_append hss hmore, .cons (.same _) hos, rfl⟩
    | false =>
      simp only [Bool.false_eq_true, if_false]
      refine (h.literal hd hn).bind fun text text' htext => ?_
      refine (alike_operandAll hd taken hs).bind ?_
      rintro ⟨more, os, taken⟩ ⟨more', os', -⟩ ⟨hmore, hos, rfl⟩
      exact .ok ⟨hmore, .cons (.literal htext) hos, rfl⟩

theorem alike_entryAll (hd : d.text = q.write) (taken : List String) :
    ∀ {ms ms' : List (String × BodyNode)}, AlikeMembers R ms ms' →
      Outcome.Related
        (AlikePart q R (List.Forall₂ fun e e' => e.1 = e'.1 ∧ Operand.Alike q R e.2 e'.2))
        (s.entryAll d taken ms) (s.entryAll d taken ms')
  | _, _, .nil => .ok ⟨.nil, .nil, rfl⟩
  | (_, n) :: _, (_, n') :: _, .cons key h hs => by
    rw [entryAll, entryAll, ← h.isContainer]
    cases hn : n.isContainer with
    | true =>
      simp only [if_true]
      refine (alike_declare hd _ _ h).bind ?_
      rintro ⟨ss, taken⟩ ⟨ss', -⟩ ⟨hss, rfl⟩
      refine (alike_entryAll hd taken hs).bind ?_
      rintro ⟨more, es, taken⟩ ⟨more', es', -⟩ ⟨hmore, hes, rfl⟩
      exact .ok ⟨List.rel_append hss hmore, .cons ⟨rfl, .same _⟩ hes, rfl⟩
    | false =>
      simp only [Bool.false_eq_true, if_false]
      refine (h.literal hd hn).bind fun text text' htext => ?_
      refine (alike_entryAll hd taken hs).bind ?_
      rintro ⟨more, es, taken⟩ ⟨more', es', -⟩ ⟨hmore, hes, rfl⟩
      exact .ok ⟨hmore, .cons ⟨rfl, .literal htext⟩ hes, rfl⟩

end

theorem body_of_isContainer (hn : n.isContainer = true) : s.body d n =
    s.declare d (Locals.allocate d d.reservedLocals (s.rootHint n)).1
      (Locals.allocate d d.reservedLocals (s.rootHint n)).2 n >>= fun block =>
        pure (block.1, .named (Locals.allocate d d.reservedLocals (s.rootHint n)).1) := by
  cases n with
  | object | array | map => rfl
  | _ => cases hn

/-- The statements of alike bodies. -/
theorem alike_body (hd : d.text = q.write) (hhint : s.rootHint n = s.rootHint n')
    (h : Alike R n n') :
    Outcome.Related (fun x x' => AlikeStatements q R x.1 x'.1 ∧ Operand.Alike q R x.2 x'.2)
      (s.body d n) (s.body d n') := by
  cases hn : n.isContainer with
  | true =>
    rw [body_of_isContainer hn, body_of_isContainer (h.isContainer ▸ hn), ← hhint]
    refine (alike_declare hd _ _ h).bind ?_
    rintro block block' ⟨hblock, -⟩
    exact .ok ⟨hblock, .same _⟩
  | false =>
    cases h with
    | same n => exact .refl (fun _ => ⟨alikeStatements_same _, .same _⟩) _
    | string hsame =>
      exact ((Alike.string hsame).literal hd rfl).bind fun _ _ htext => .ok ⟨.nil, .literal htext⟩
    | object | array | map => cases hn

end SetterStyle

/-! ## Requests -/

/-- Values of query options that are the same, or related texts. -/
inductive OptionValue.Alike (R : String → String → Prop) : OptionValue → OptionValue → Prop
  | same (v : OptionValue) : Alike R v v
  | text {v v' : String} : R v v' → Alike R (.text v) (.text v')

/-- Query options of the same name with alike values. -/
structure QueryOption.Alike (R : String → String → Prop) (o o' : QueryOption) : Prop where
  name : o.name = o'.name
  value : o.value.Alike R o'.value

/-- Headers of the same name with related values. -/
structure Header.Alike (R : String → String → Prop) (h h' : Header) : Prop where
  name : h.name = h'.name
  value : R h.value h'.value

/-- **That two requests are the same but for related texts**: those of string
nodes in their bodies, of query options and of headers. -/
structure ResolvedRequest.Alike (R : String → String → Prop) (r r' : ResolvedRequest) : Prop where
  method : r.method = r'.method
  segments : r.segments = r'.segments
  operation : r.operation = r'.operation
  index : r.index = r'.index
  query : List.Forall₂ (QueryOption.Alike R) r.query r'.query
  headers : List.Forall₂ (Header.Alike R) r.headers r'.headers
  body : Outcome.Related (Option.Rel (BodyGraph.Alike R)) (Body.build r).outcome
    (Body.build r').outcome

section

variable {q : Quoting} {R : String → String → Prop} {d : Dialect} {r r' : ResolvedRequest}

theorem Dialect.woven_optionValue (hd : d.text = q.write) (list : List String → String)
    {v v' : OptionValue} (h : v.Alike R v') :
    Woven q R (d.optionValue list v) (d.optionValue list v') := by
  cases h with
  | same v => exact .const _
  | text hsame =>
    rw [optionValue, optionValue, hd]
    exact .literal hsame

theorem isEmpty_eq_of_forall₂ {α β : Type} {S : α → β → Prop} {xs : List α} {ys : List β}
    (h : List.Forall₂ S xs ys) : xs.isEmpty = ys.isEmpty := by
  cases h <;> rfl

theorem ResolvedRequest.Alike.hasConfiguration (h : r.Alike R r') :
    r.hasConfiguration = r'.hasConfiguration := by
  rw [ResolvedRequest.hasConfiguration, ResolvedRequest.hasConfiguration,
    isEmpty_eq_of_forall₂ h.query, isEmpty_eq_of_forall₂ h.headers]

end

/-! ## Snippets -/

/-- That imports do not depend on the texts of a body or a configuration. -/
structure ImportStyle.IgnoresTexts (s : ImportStyle) (R : String → String → Prop) : Prop where
  configuration : ∀ {r r' : ResolvedRequest}, r.Alike R r' → s.configuration r = s.configuration r'
  literal : ∀ {n n' : BodyNode}, n.Alike R n' → s.literal n = s.literal n'
  types : ∀ {n n' : BodyNode}, n.Alike R n' → s.types n = s.types n'

namespace Language

variable {l : Language} {q : Quoting} {R : String → String → Prop} {r r' : ResolvedRequest}

theorem namedType?_of_alike {n n' : BodyNode} (h : n.Alike R n') :
    namedType? n = namedType? n' := by
  cases h with
  | array item h => cases item <;> rfl
  | _ => rfl

/-- Alike nodes name the same types. -/
theorem typesOf_of_alike {n n' : BodyNode} (h : n.Alike R n') : typesOf n = typesOf n' := by
  rw [typesOf, typesOf, List.filterMap_eq_flatMap_toList, List.filterMap_eq_flatMap_toList]
  exact h.flatMap_walk fun hm => congrArg _ (namedType?_of_alike hm)

/-- That a language puts the texts of a request into its code as literals of one
kind, and reads them for nothing else. -/
structure Weaves (l : Language) (q : Quoting) (R : String → String → Prop) : Prop where
  text : l.dialect.text = q.write
  expresses : ∀ option?, l.body ≠ .command option?
  declaration : ∀ {s}, l.body = .initializer s → ∀ name {n n' : BodyNode}, n.Alike R n' →
    s.declaration name n = s.declaration name n'
  hint : ∀ {s}, l.body = .setter s → ∀ {n n' : BodyNode}, n.Alike R n' →
    s.rootHint n = s.rootHint n'
  statement : ∀ {s}, l.body = .setter s → ∀ segments {st st' : Statement}, st.Alike q R st' →
    List.Forall₂ (Woven q R) (s.write segments st) (s.write segments st')
  configuration : ∀ {r r' : ResolvedRequest}, r.Alike R r' →
    List.Forall₂ (Woven q R) (l.configuration r).1 (l.configuration r').1 ∧
      Option.Rel (Woven q R) (l.configuration r).2 (l.configuration r').2
  arguments : ∀ {body body' conf conf' : Option String}, Option.Rel (Woven q R) body body' →
    Option.Rel (Woven q R) conf conf' →
    List.Forall₂ (Woven q R) (l.arguments body conf) (l.arguments body' conf')
  call : ∀ chain {args args' : List String} {r r' : ResolvedRequest}, r.Alike R r' →
    List.Forall₂ (Woven q R) args args' → Woven q R (l.call chain args r) (l.call chain args' r')
  imports : ∀ {s}, l.imports = some s → s.IgnoresTexts R

/-- **The code for alike bodies.** -/
theorem Weaves.bodyCode (hl : l.Weaves q R) (hsegments : r.segments = r'.segments)
    {g g' : BodyGraph} (h : g.Alike R g') :
    Outcome.Related
      (fun p p' => List.Forall₂ (Woven q R) p.1 p'.1 ∧ Option.Rel (Woven q R) p.2 p'.2)
      (l.bodyCode g r) (l.bodyCode g' r') := by
  cases hbody : l.body with
  | command option? => exact absurd hbody (hl.expresses option?)
  | setter s =>
    rw [Language.bodyCode, Language.bodyCode, hbody, ← hsegments]
    refine (SetterStyle.alike_body hl.text (hl.hint hbody h) h).bind ?_
    rintro ⟨ss, o⟩ ⟨ss', o'⟩ ⟨hss, ho⟩
    have hlines : List.Forall₂ (Woven q R) (ss.flatMap (s.write r.segments))
        (ss'.flatMap (s.write r.segments)) :=
      List.rel_flatMap hss fun _ _ hst => hl.statement hbody r.segments hst
    exact .ok ⟨hlines, .some ho.write⟩
  | initializer s =>
    by_cases hstream : ∃ bs, g.root = .stream bs
    · obtain ⟨bs, hroot⟩ := hstream
      have hroot' : g'.root = .stream bs := (BodyNode.Alike.eq_stream_iff h).1 hroot
      rw [Language.bodyCode, Language.bodyCode, hbody, hroot, hroot']
      exact .ok ⟨Woven.lines _, .some (.const _)⟩
    · have hroot : ∀ bs, g.root ≠ .stream bs := fun bs heq => hstream ⟨bs, heq⟩
      have hroot' : ∀ bs, g'.root ≠ .stream bs := fun bs heq =>
        hroot bs ((BodyNode.Alike.eq_stream_iff h).2 heq)
      rw [bodyCode_initializer hbody hroot, bodyCode_initializer hbody hroot']
      refine (InitializerStyle.alike_declare hl.text h _ (hl.declaration hbody _ h)).map ?_
      intro ls ls' hls
      exact ⟨List.rel_map (fun _ _ hline => hline.write) hls, .some (.const _)⟩

end Language

end ApiSnippets
