import ApiSnippets.Code.Statement
import ApiSnippets.Proofs.Outcome
/-!
# Where the code of statements comes from

The statements for a body hold no code of their own: each literal in them is
that of a node of the body, a point in time is read for a node that is one, and
octets are decoded for a stream (`SetterStyle.stems_body`). The statements and
the operands that the walks through a body write are put together as the nodes
are (`SetterStyle.Stems.append`).
-/

namespace ApiSnippets

variable {d : Dialect} {ns ms : List BodyNode} {n : BodyNode} {text : String}

/-! ## Literals -/

/-- That a text is the literal of one of these nodes. -/
def Dialect.Writes (d : Dialect) (ns : List BodyNode) (text : String) : Prop :=
  ∃ n ∈ ns, d.literal n = .ok text

theorem Dialect.Writes.mono (h : d.Writes ns text) (hsub : ns ⊆ ms) : d.Writes ms text := by
  obtain ⟨n, hn, htext⟩ := h
  exact ⟨n, hsub hn, htext⟩

/-- That an operand has no literal other than those of some nodes. -/
def Operand.Stems (d : Dialect) (ns : List BodyNode) : Operand → Prop
  | literal text => d.Writes ns text
  | named _ => True
  | address _ => True

/-- That a statement has no code other than that of some nodes. -/
def Statement.Stems (d : Dialect) (ns : List BodyNode) : Statement → Prop
  | object _ _ => True
  | list _ _ elements => ∀ e ∈ elements, e.Stems d ns
  | map _ entries => ∀ e ∈ entries, e.2.Stems d ns
  | assign _ _ value => value.Stems d ns
  | scalar _ text => d.Writes ns text
  | moment _ text => ∃ v, .datetime v .dateTime ∈ ns ∧ d.literal (.datetime v .dateTime) = .ok text
  | stream _ _ => ∃ octets, .stream octets ∈ ns

theorem Operand.Stems.mono {op : Operand} (h : op.Stems d ns) (hsub : ns ⊆ ms) :
    op.Stems d ms := by
  cases op with
  | literal text => exact Dialect.Writes.mono h hsub
  | named name => trivial
  | address name => trivial

theorem Statement.Stems.mono {st : Statement} (h : st.Stems d ns) (hsub : ns ⊆ ms) :
    st.Stems d ms := by
  cases st with
  | object name t => trivial
  | list name item elements => exact fun e he => (h e he).mono hsub
  | map name entries => exact fun e he => (h e he).mono hsub
  | assign owner member value => exact Operand.Stems.mono h hsub
  | scalar name text => exact Dialect.Writes.mono h hsub
  | moment name text =>
    obtain ⟨v, hv, htext⟩ := h
    exact ⟨v, hsub hv, htext⟩
  | stream name base64 =>
    obtain ⟨octets, ho⟩ := h
    exact ⟨octets, hsub ho⟩

namespace SetterStyle

variable {s : SetterStyle} {ss ts : List Statement} {ops ops' : List Operand}
variable {taken taken₁ : List String} {name : String}

/-- Statements and operands that stem from some nodes. -/
structure Stems (d : Dialect) (ns : List BodyNode) (ss : List Statement) (ops : List Operand) :
    Prop where
  statements : ∀ st ∈ ss, st.Stems d ns
  operands : ∀ op ∈ ops, op.Stems d ns

namespace Stems

theorem nil : Stems d [] [] [] :=
  ⟨by simp, by simp⟩

theorem mono (h : Stems d ns ss ops) (hsub : ns ⊆ ms) : Stems d ms ss ops :=
  ⟨fun st hst => (h.statements st hst).mono hsub, fun op hop => (h.operands op hop).mono hsub⟩

theorem below (h : Stems d ns ss ops) (n : BodyNode) : Stems d (n :: ns) ss ops :=
  h.mono (List.subset_cons_self n ns)

/-- **What is written for two lists of nodes stems from both.** -/
theorem append (h : Stems d ns ss ops) (h' : Stems d ms ts ops') :
    Stems d (ns ++ ms) (ss ++ ts) (ops ++ ops') where
  statements := List.forall_mem_append.2
    ⟨(h.mono (List.subset_append_left _ _)).statements,
      (h'.mono (List.subset_append_right _ _)).statements⟩
  operands := List.forall_mem_append.2
    ⟨(h.mono (List.subset_append_left _ _)).operands,
      (h'.mono (List.subset_append_right _ _)).operands⟩

/-- A statement between, which may hold the operands of the first part. -/
theorem assign {st : Statement} (h : Stems d ns ss ops) (h' : Stems d ms ts [])
    (hst : st.Stems d ns) : Stems d (ns ++ ms) (ss ++ st :: ts) [] := by
  have hfirst : Stems d ns (ss ++ [st]) [] :=
    ⟨List.forall_mem_append.2 ⟨h.statements, List.forall_mem_singleton.2 hst⟩, by simp⟩
  simpa using hfirst.append h'

/-- Operands that are named instead of written. -/
theorem named (h : Stems d ns ss []) (name : String) : Stems d ns ss [.named name] :=
  ⟨h.statements, List.forall_mem_singleton.2 trivial⟩

theorem literal (h : d.literal n = .ok text) (hn : n.isContainer = false) :
    Stems d n.walk [] [.literal text] := by
  rw [BodyNode.walk_of_not_isContainer hn]
  exact ⟨by simp, List.forall_mem_singleton.2 ⟨n, List.mem_singleton_self n, h⟩⟩

end Stems

/-! ## The walks -/

theorem stems_scalarOperand {op : Operand} (hn : n.isContainer = false)
    (h : scalarOperand d s taken name n = .ok (ss, op, taken₁)) : Stems d n.walk ss [op] := by
  obtain ⟨text, htext, h⟩ := Outcome.bind_eq_ok.1 h
  split at h <;> cases Outcome.pure_eq_ok.1 h
  · refine ⟨List.forall_mem_singleton.2 ?_, List.forall_mem_singleton.2 trivial⟩
    rw [BodyNode.walk_of_not_isContainer hn]
    unfold bindScalar
    split
    · exact ⟨_, List.mem_singleton_self _, htext⟩
    · exact ⟨n, List.mem_singleton_self n, htext⟩
  · exact .literal htext hn

mutual

/-- The statements of a container stem from it and what is below it. -/
theorem stems_declare : ∀ (n : BodyNode) (name : String) (taken : List String)
    (ss : List Statement) (taken₁ : List String),
    declare d s name taken n = .ok (ss, taken₁) → Stems d n.walk ss []
  | .object type members _, name, taken, ss, taken₁, h => by
    obtain ⟨⟨ts, taken₂⟩, hts, h⟩ := Outcome.bind_eq_ok.1 h
    cases Outcome.pure_eq_ok.1 h
    have hmembers := stems_assignAll members name taken ts taken₁ hts
    have hself : Statement.Stems d (BodyNode.walkMembers members) (.object name type) := trivial
    rw [BodyNode.walk]
    exact Stems.below ⟨List.forall_mem_cons.2 ⟨hself, hmembers.statements⟩, by simp⟩ _
  | .array item elements, name, taken, ss, taken₁, h => by
    obtain ⟨⟨ts, ops, taken₂⟩, hts, h⟩ := Outcome.bind_eq_ok.1 h
    cases Outcome.pure_eq_ok.1 h
    have helements := stems_operandAll elements taken ts ops taken₁ hts
    have hself : Statement.Stems d (BodyNode.walkAll elements) (.list name item ops) :=
      helements.operands
    rw [BodyNode.walk]
    exact Stems.below ⟨List.forall_mem_append.2
      ⟨helements.statements, List.forall_mem_singleton.2 hself⟩, by simp⟩ _
  | .map members, name, taken, ss, taken₁, h => by
    obtain ⟨⟨ts, entries, taken₂⟩, hts, h⟩ := Outcome.bind_eq_ok.1 h
    cases Outcome.pure_eq_ok.1 h
    have hentries := stems_entryAll members taken ts entries taken₁ hts
    have hself : Statement.Stems d (BodyNode.walkMembers members) (.map name entries) :=
      fun e he => hentries.operands e.2 (List.mem_map_of_mem he)
    rw [BodyNode.walk]
    exact Stems.below ⟨List.forall_mem_append.2
      ⟨hentries.statements, List.forall_mem_singleton.2 hself⟩, by simp⟩ _
  | .string _, _, _, _, _, h | .number _ _, _, _, _, _, h | .boolean _, _, _, _, _, h
  | .guid _, _, _, _, _, h | .datetime _ _, _, _, _, _, h | .binary _, _, _, _, _, h
  | .stream _, _, _, _, _, h | .enum _ _ _, _, _, _, _, h | .null, _, _, _, _, h => by
    cases Except.ok.inj h
    exact ⟨by simp, by simp⟩

theorem stems_assignAll : ∀ (members : List (String × BodyNode)) (owner : String)
    (taken : List String) (ss : List Statement) (taken₁ : List String),
    assignAll d s owner taken members = .ok (ss, taken₁) →
      Stems d (BodyNode.walkMembers members) ss []
  | [], owner, taken, ss, taken₁, h => by
    rw [assignAll] at h
    cases Except.ok.inj h
    exact .nil
  | (member, n) :: members, owner, taken, ss, taken₁, h => by
    rw [assignAll] at h
    split at h
    · obtain ⟨⟨ts, taken₂⟩, hts, h⟩ := Outcome.bind_eq_ok.1 h
      obtain ⟨⟨rest, taken₃⟩, hrest, h⟩ := Outcome.bind_eq_ok.1 h
      cases Outcome.pure_eq_ok.1 h
      have hfirst := stems_declare n _ _ ts taken₂ hts
      exact hfirst.assign (stems_assignAll members owner taken₂ rest taken₁ hrest) trivial
    · next hn =>
      obtain ⟨⟨ts, op, taken₂⟩, hts, h⟩ := Outcome.bind_eq_ok.1 h
      obtain ⟨⟨rest, taken₃⟩, hrest, h⟩ := Outcome.bind_eq_ok.1 h
      cases Outcome.pure_eq_ok.1 h
      have hfirst := stems_scalarOperand (by simpa using hn) hts
      exact hfirst.assign (stems_assignAll members owner taken₂ rest taken₁ hrest)
        (hfirst.operands op (List.mem_singleton_self op))

theorem stems_operandAll : ∀ (elements : List BodyNode) (taken : List String)
    (ss : List Statement) (ops : List Operand) (taken₁ : List String),
    operandAll d s taken elements = .ok (ss, ops, taken₁) →
      Stems d (BodyNode.walkAll elements) ss ops
  | [], taken, ss, ops, taken₁, h => by
    rw [operandAll] at h
    cases Except.ok.inj h
    exact .nil
  | n :: elements, taken, ss, ops, taken₁, h => by
    rw [operandAll] at h
    split at h
    · obtain ⟨⟨ts, taken₂⟩, hts, h⟩ := Outcome.bind_eq_ok.1 h
      obtain ⟨⟨rest, more, taken₃⟩, hrest, h⟩ := Outcome.bind_eq_ok.1 h
      cases Outcome.pure_eq_ok.1 h
      have hfirst := stems_declare n _ _ ts taken₂ hts
      exact (hfirst.named _).append (stems_operandAll elements taken₂ rest more taken₁ hrest)
    · next hn =>
      obtain ⟨text, htext, h⟩ := Outcome.bind_eq_ok.1 h
      obtain ⟨⟨rest, more, taken₃⟩, hrest, h⟩ := Outcome.bind_eq_ok.1 h
      cases Outcome.pure_eq_ok.1 h
      exact (Stems.literal htext (by simpa using hn)).append
        (stems_operandAll elements taken ss more taken₁ hrest)

theorem stems_entryAll : ∀ (members : List (String × BodyNode)) (taken : List String)
    (ss : List Statement) (entries : List (String × Operand)) (taken₁ : List String),
    entryAll d s taken members = .ok (ss, entries, taken₁) →
      Stems d (BodyNode.walkMembers members) ss (entries.map Prod.snd)
  | [], taken, ss, entries, taken₁, h => by
    rw [entryAll] at h
    cases Except.ok.inj h
    exact .nil
  | (key, n) :: members, taken, ss, entries, taken₁, h => by
    rw [entryAll] at h
    split at h
    · obtain ⟨⟨ts, taken₂⟩, hts, h⟩ := Outcome.bind_eq_ok.1 h
      obtain ⟨⟨rest, more, taken₃⟩, hrest, h⟩ := Outcome.bind_eq_ok.1 h
      cases Outcome.pure_eq_ok.1 h
      have hfirst := stems_declare n _ _ ts taken₂ hts
      exact (hfirst.named _).append (stems_entryAll members taken₂ rest more taken₁ hrest)
    · next hn =>
      obtain ⟨text, htext, h⟩ := Outcome.bind_eq_ok.1 h
      obtain ⟨⟨rest, more, taken₃⟩, hrest, h⟩ := Outcome.bind_eq_ok.1 h
      cases Outcome.pure_eq_ok.1 h
      exact (Stems.literal htext (by simpa using hn)).append
        (stems_entryAll members taken ss more taken₁ hrest)

end

/-- **The code of a body stems from its nodes.** -/
theorem stems_body {op : Operand} (h : s.body d n = .ok (ss, op)) : Stems d n.walk ss [op] := by
  unfold body at h
  split at h
  · next octets =>
    cases Except.ok.inj h
    have hstream : ∃ bs, BodyNode.stream bs ∈ (BodyNode.stream octets).walk :=
      ⟨octets, List.mem_singleton_self _⟩
    exact ⟨List.forall_mem_singleton.2 hstream, List.forall_mem_singleton.2 trivial⟩
  · split at h
    · obtain ⟨⟨ts, taken⟩, hts, h⟩ := Outcome.bind_eq_ok.1 h
      cases Outcome.pure_eq_ok.1 h
      exact (stems_declare n _ _ ss taken hts).named _
    · next hn =>
      obtain ⟨text, htext, h⟩ := Outcome.bind_eq_ok.1 h
      cases Outcome.pure_eq_ok.1 h
      exact .literal htext (by simpa using hn)

end SetterStyle

end ApiSnippets
