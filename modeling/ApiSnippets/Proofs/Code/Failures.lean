import ApiSnippets.Proofs.Body.Numbers
import ApiSnippets.Proofs.Code.Imports
import ApiSnippets.Proofs.Number.Nearest
import ApiSnippets.Snippet
/-!
# When code cannot be written

Writing a body asks every leaf for its literal and does nothing else that can
fail. Whatever the style, a fault is therefore that of a leaf
(`dependsOn_bodyCode`), never one of a container that is taken for a leaf; and
the leaves of a graph that is built have literals, except for integers beyond
the doubles where a double is wanted (`write_fails_beyond_doubles`).
-/

namespace ApiSnippets

variable {α β : Type} {d : Dialect} {l : Language} {g : BodyGraph} {r : ResolvedRequest}
  {ns ms : List BodyNode} {n : BodyNode} {e : Fault}

/-! ## Leaves -/

/-- That an outcome depends on the leaves among some nodes alone: it fails as
the literal of one of them does, and has a value only if all have a literal. -/
structure Dialect.DependsOn (d : Dialect) (ns : List BodyNode) (x : Outcome α) : Prop where
  fails : ∀ e, x = .error e → ∃ n ∈ ns, n.isContainer = false ∧ d.literal n = .error e
  succeeds : ∀ a, x = .ok a → ∀ n ∈ ns, n.isContainer = false → ∃ text, d.literal n = .ok text

namespace Dialect.DependsOn

variable {x : Outcome α}

theorem nil (a : α) : d.DependsOn [] (.ok a) where
  fails e h := by cases h
  succeeds _ _ n hn := by cases hn

/-- A container has no literal of its own. -/
theorem cons (hn : n.isContainer = true) (hx : d.DependsOn ns x) : d.DependsOn (n :: ns) x where
  fails e h := by
    obtain ⟨m, hm, hleaf, hliteral⟩ := hx.fails e h
    exact ⟨m, List.mem_cons_of_mem _ hm, hleaf, hliteral⟩
  succeeds a h m hm hleaf := by
    rcases List.mem_cons.1 hm with rfl | hm
    · exact absurd hn (by simp [hleaf])
    · exact hx.succeeds a h m hm hleaf

/-- A step for some nodes and the steps for those behind them. -/
theorem append {f : α → Outcome β} (hx : d.DependsOn ns x) (hf : ∀ a, d.DependsOn ms (f a)) :
    d.DependsOn (ns ++ ms) (x >>= f) where
  fails e h := by
    rcases Outcome.bind_eq_error.1 h with h | ⟨a, -, h⟩
    · obtain ⟨n, hn, hliteral⟩ := hx.fails e h
      exact ⟨n, List.mem_append_left _ hn, hliteral⟩
    · obtain ⟨n, hn, hliteral⟩ := (hf a).fails e h
      exact ⟨n, List.mem_append_right _ hn, hliteral⟩
  succeeds b h n hn hleaf := by
    obtain ⟨a, ha, hb⟩ := Outcome.bind_eq_ok.1 h
    rcases List.mem_append.1 hn with hn | hn
    · exact hx.succeeds a ha n hn hleaf
    · exact (hf a).succeeds b hb n hn hleaf

/-- A step that needs no leaf may follow. -/
theorem andThen {f : α → Outcome β} (hx : d.DependsOn ns x) (hf : ∀ a, d.DependsOn [] (f a)) :
    d.DependsOn ns (x >>= f) := by
  have happend := hx.append hf
  rwa [List.append_nil] at happend

theorem literal (hn : n.isContainer = false) : d.DependsOn n.walk (d.literal n) := by
  rw [BodyNode.walk_of_not_isContainer hn]
  constructor
  · intro e h
    exact ⟨n, List.mem_singleton_self n, hn, h⟩
  · intro text h m hm _
    obtain rfl := List.mem_singleton.1 hm
    exact ⟨text, h⟩

/-- A stream always has a literal. -/
theorem stream (octets : Bytes) (a : α) : d.DependsOn (BodyNode.stream octets).walk (.ok a) :=
  (literal rfl : d.DependsOn _ (d.literal (.stream octets))).andThen fun _ => nil a

end Dialect.DependsOn

open Dialect (DependsOn)

/-! ## Nested expressions -/

namespace InitializerStyle

variable {s : InitializerStyle}

theorem dependsOn_leaf (hn : n.isContainer = false)
    (hexpress : s.express d n = d.literal n >>= fun text => pure (.leaf text)) :
    d.DependsOn n.walk (s.express d n) := by
  rw [hexpress]
  exact (DependsOn.literal hn).andThen fun _ => .nil _

mutual

/-- **An expression depends on its leaves alone.** -/
theorem dependsOn_express : ∀ n : BodyNode, d.DependsOn n.walk (s.express d n)
  | .object t members derived => by
    rw [express, BodyNode.walk]
    exact ((dependsOn_expressMembers members s.field).andThen fun _ => .nil _).cons rfl
  | .array item [] => by
    rw [express, BodyNode.walk, BodyNode.walkAll]
    exact (DependsOn.nil _).cons rfl
  | .array item (n :: ns) => by
    rw [express, BodyNode.walk, BodyNode.walkAll]
    refine DependsOn.cons rfl ((dependsOn_express n).append fun _ => ?_)
    exact (dependsOn_expressAll ns).andThen fun _ => .nil _
  | .map members => by
    rw [express, BodyNode.walk]
    exact ((dependsOn_expressMembers members s.entry).andThen fun _ => .nil _).cons rfl
  | .string _ => dependsOn_leaf rfl rfl
  | .number _ _ => dependsOn_leaf rfl rfl
  | .boolean _ => dependsOn_leaf rfl rfl
  | .guid _ => dependsOn_leaf rfl rfl
  | .datetime _ _ => dependsOn_leaf rfl rfl
  | .binary _ => dependsOn_leaf rfl rfl
  | .stream _ => dependsOn_leaf rfl rfl
  | .enum _ _ _ => dependsOn_leaf rfl rfl
  | .null => dependsOn_leaf rfl rfl

theorem dependsOn_expressAll : ∀ ns : List BodyNode,
    d.DependsOn (BodyNode.walkAll ns) (s.expressAll d ns)
  | [] => by
    rw [expressAll]
    exact .nil _
  | n :: ns => by
    rw [expressAll, BodyNode.walkAll]
    exact (dependsOn_express n).append fun _ => (dependsOn_expressAll ns).andThen fun _ => .nil _

theorem dependsOn_expressMembers : ∀ (ms : List (String × BodyNode)) (start : String → String),
    d.DependsOn (BodyNode.walkMembers ms) (s.expressMembers d start ms)
  | [], start => by
    rw [expressMembers]
    exact .nil _
  | (name, n) :: ms, start => by
    rw [expressMembers, BodyNode.walkMembers]
    exact (dependsOn_express n).append fun _ =>
      (dependsOn_expressMembers ms start).andThen fun _ => .nil _

end

end InitializerStyle

/-- An expression is written on one line at least. -/
theorem Expression.lines_ne_nil (x : Expression) (indent : Nat) (start ending : String) :
    x.lines indent start ending ≠ [] := by
  cases x with
  | leaf text =>
    rw [lines]
    exact List.cons_ne_nil _ _
  | group head more members close =>
    rw [lines]
    exact List.append_ne_nil_of_right_ne_nil _ (List.cons_ne_nil _ _)

/-! ## Statements -/

namespace SetterStyle

variable {s : SetterStyle}

theorem dependsOn_scalarOperand (taken : List String) (name : String)
    (hn : n.isContainer = false) : d.DependsOn n.walk (s.scalarOperand d taken name n) := by
  unfold scalarOperand
  refine (DependsOn.literal hn).andThen fun text => ?_
  split <;> exact .nil _

mutual

/-- **The statements of a container depend on its leaves alone.** What is no
container has no statements of its own: its literal stands where it is used. -/
theorem dependsOn_declare : ∀ (n : BodyNode) (name : String) (taken : List String),
    n.isContainer = true → d.DependsOn n.walk (s.declare d name taken n)
  | .object t members derived, name, taken, _ => by
    rw [declare, BodyNode.walk]
    exact ((dependsOn_assignAll members name taken).andThen fun _ => .nil _).cons rfl
  | .array item elements, name, taken, _ => by
    rw [declare, BodyNode.walk]
    exact ((dependsOn_operandAll elements taken).andThen fun _ => .nil _).cons rfl
  | .map members, name, taken, _ => by
    rw [declare, BodyNode.walk]
    exact ((dependsOn_entryAll members taken).andThen fun _ => .nil _).cons rfl
  | .string _, _, _, hn | .number _ _, _, _, hn | .boolean _, _, _, hn | .guid _, _, _, hn
  | .datetime _ _, _, _, hn | .binary _, _, _, hn | .stream _, _, _, hn | .enum _ _ _, _, _, hn
  | .null, _, _, hn => absurd hn Bool.false_ne_true

theorem dependsOn_assignAll : ∀ (ms : List (String × BodyNode)) (owner : String)
    (taken : List String), d.DependsOn (BodyNode.walkMembers ms) (s.assignAll d owner taken ms)
  | [], owner, taken => by
    rw [assignAll]
    exact .nil _
  | (member, n) :: ms, owner, taken => by
    rw [assignAll, BodyNode.walkMembers]
    split
    · next hn =>
      exact (dependsOn_declare n _ _ hn).append fun _ =>
        (dependsOn_assignAll ms owner _).andThen fun _ => .nil _
    · next hn =>
      exact (dependsOn_scalarOperand taken member (by simpa using hn)).append fun _ =>
        (dependsOn_assignAll ms owner _).andThen fun _ => .nil _

theorem dependsOn_operandAll : ∀ (ns : List BodyNode) (taken : List String),
    d.DependsOn (BodyNode.walkAll ns) (s.operandAll d taken ns)
  | [], taken => by
    rw [operandAll]
    exact .nil _
  | n :: ns, taken => by
    rw [operandAll, BodyNode.walkAll]
    split
    · next hn =>
      exact (dependsOn_declare n _ _ hn).append fun _ =>
        (dependsOn_operandAll ns _).andThen fun _ => .nil _
    · next hn =>
      exact (DependsOn.literal (by simpa using hn)).append fun _ =>
        (dependsOn_operandAll ns _).andThen fun _ => .nil _

theorem dependsOn_entryAll : ∀ (ms : List (String × BodyNode)) (taken : List String),
    d.DependsOn (BodyNode.walkMembers ms) (s.entryAll d taken ms)
  | [], taken => by
    rw [entryAll]
    exact .nil _
  | (key, n) :: ms, taken => by
    rw [entryAll, BodyNode.walkMembers]
    split
    · next hn =>
      exact (dependsOn_declare n _ _ hn).append fun _ =>
        (dependsOn_entryAll ms _).andThen fun _ => .nil _
    · next hn =>
      exact (DependsOn.literal (by simpa using hn)).append fun _ =>
        (dependsOn_entryAll ms _).andThen fun _ => .nil _

end

theorem dependsOn_body (n : BodyNode) : d.DependsOn n.walk (s.body d n) := by
  unfold body
  split
  · exact .stream _ _
  · split
    · next hn => exact (dependsOn_declare _ _ _ hn).andThen fun _ => .nil _
    · next hn => exact (DependsOn.literal (by simpa using hn)).andThen fun _ => .nil _

end SetterStyle

/-! ## Bodies -/

namespace Language

/-- **The code of a body depends on its leaves**, in both styles that write
it. A command does not write it. -/
theorem dependsOn_bodyCode (hl : ∀ option?, l.body ≠ .command option?) (g : BodyGraph)
    (r : ResolvedRequest) : l.dialect.DependsOn g.root.walk (l.bodyCode g r) := by
  unfold bodyCode
  split
  · next option? hbody => exact absurd hbody (hl option?)
  · exact (SetterStyle.dependsOn_body g.root).andThen fun _ => .nil _
  · dsimp only
    split
    · next octets hroot =>
      rw [hroot]
      exact .stream _ _
    · refine DependsOn.andThen ?_ fun _ => .nil _
      exact (InitializerStyle.dependsOn_express g.root).andThen fun _ => .nil _

end Language

/-- That a node is an integer beyond the doubles where a double is wanted: one
that is half a step above the largest double or further from zero. -/
inductive BodyNode.BeyondDoubles : BodyNode → Prop
  | number {n : Int} {t : NumberType} : t.fractional = true →
      Number.twoTo 1024 - Number.twoTo 970 ≤ n.natAbs → BeyondDoubles (.number (.int n) t)

theorem BodyNode.BeyondDoubles.isContainer (h : n.BeyondDoubles) : n.isContainer = false := by
  cases h
  rfl

/-- Of the leaves only a number can be without a literal. -/
theorem Dialect.literal_eq_error (hn : n.isContainer = false) (hfraction : n.KeepsFraction) :
    d.literal n = .error e ↔ e = .defect .overflow ∧ n.BeyondDoubles := by
  constructor
  · intro h
    cases n with
    | number v t =>
      have hdigits : Dialect.digits v t = .error e := by
        rcases Outcome.bind_eq_error.1 h with h | ⟨text, -, h⟩
        · exact h
        · cases h
      cases v with
      | int i =>
        cases htype : t.fractional with
        | false => simp [Dialect.digits, htype] at hdigits
        | true =>
          cases hdouble : Number.floatOfInt? i with
          | some x => simp [Dialect.digits, htype, hdouble] at hdigits
          | none =>
            have hfault : e = .defect .overflow := by
              simpa [Dialect.digits, htype, hdouble, eq_comm] using hdigits
            exact ⟨hfault, .number htype (Number.floatOfInt?_eq_none.1 hdouble)⟩
      | num x =>
        -- a double is never written as an integer
        have htype : t.fractional = true := hfraction
        simp [Dialect.digits, htype] at hdigits
    | object t members derived => cases hn
    | array item elements => cases hn
    | map members => cases hn
    | _ => cases h
  · rintro ⟨rfl, hbeyond⟩
    cases hbeyond with
    | number htype hlarge =>
      simp only [Dialect.literal, Dialect.digits, htype, Number.floatOfInt?_eq_none.2 hlarge]
      rfl

theorem Language.bodyCode_eq_error (hl : ∀ option?, l.body ≠ .command option?)
    (hg : g.root.KeepsFractions) :
    l.bodyCode g r = .error e ↔ e = .defect .overflow ∧ ∃ n ∈ g.root.walk, n.BeyondDoubles := by
  have hcode := l.dependsOn_bodyCode hl g r
  have hfault : ∀ e, l.bodyCode g r = .error e →
      e = .defect .overflow ∧ ∃ n ∈ g.root.walk, n.BeyondDoubles := by
    intro e h
    obtain ⟨n, hn, hleaf, hliteral⟩ := hcode.fails e h
    obtain ⟨he, hbeyond⟩ := (Dialect.literal_eq_error hleaf (hg n hn)).1 hliteral
    exact ⟨he, n, hn, hbeyond⟩
  refine ⟨hfault e, ?_⟩
  rintro ⟨rfl, n, hn, hbeyond⟩
  cases h : l.bodyCode g r with
  | ok code =>
    obtain ⟨text, htext⟩ := hcode.succeeds code h n hn hbeyond.isContainer
    have herror := (Dialect.literal_eq_error (d := l.dialect) hbeyond.isContainer (hg n hn)).2
      ⟨rfl, hbeyond⟩
    rw [htext] at herror
    cases herror
  | error e => rw [(hfault e h).1]

namespace Snippet

/-- Of a snippet only the part for the body can fail. -/
theorem write_eq_error {body : Option BodyGraph} {imports : List String} :
    write l r body imports = .error e ↔ ∃ g, body = some g ∧ l.bodyCode g r = .error e := by
  unfold write
  rw [Outcome.bind_eq_error]
  constructor
  · rintro (hpart | ⟨part, -, hrest⟩)
    · cases body with
      | none => cases hpart
      | some g => exact ⟨g, rfl, hpart⟩
    · cases hrest
  · rintro ⟨g, rfl, hcode⟩
    exact .inl hcode

/-- **A snippet can be written** in every language for every request whose body
has been built, and so can its imports. The one exception is a body with an
integer beyond the doubles where a double is wanted, in the languages that
write bodies. In particular no container is ever taken for a leaf, and every
expression has a line. -/
theorem write_fails_beyond_doubles (l : Language) {r : ResolvedRequest} {body : Option BodyGraph}
    (hbody : (Body.build r).outcome = .ok body) (imports : List String) :
    (∃ lines, Imports.resolve r l body none = .ok lines) ∧
    ((∃ text, write l r body imports = .ok text) ∨
      write l r body imports = .error (.defect .overflow)) ∧
    (write l r body imports = .error (.defect .overflow) ↔
      (∀ option?, l.body ≠ .command option?) ∧
        ∃ g, body = some g ∧ ∃ n ∈ g.root.walk, n.BeyondDoubles) ∧
    ∀ (x : Expression) (indent : Nat) (start ending : String),
      x.lines indent start ending ≠ [] := by
  have hfault : ∀ e, write l r body imports = .error e ↔ e = .defect .overflow ∧
      (∀ option?, l.body ≠ .command option?) ∧
        ∃ g, body = some g ∧ ∃ n ∈ g.root.walk, n.BeyondDoubles := by
    intro e
    rw [write_eq_error]
    by_cases hl : ∃ option?, l.body = .command option?
    · -- a command has the body as it was sent
      obtain ⟨option?, hl⟩ := hl
      refine iff_of_false ?_ fun h => h.2.1 option? hl
      rintro ⟨g, rfl, hcode⟩
      rw [Language.bodyCode, hl] at hcode
      cases hcode
    · rw [not_exists] at hl
      constructor
      · rintro ⟨g, rfl, hcode⟩
        obtain ⟨he, hbeyond⟩ :=
          (Language.bodyCode_eq_error hl (Body.keepsFractions_build hbody)).1 hcode
        exact ⟨he, hl, g, rfl, hbeyond⟩
      · rintro ⟨he, -, g, rfl, hbeyond⟩
        exact ⟨g, rfl,
          (Language.bodyCode_eq_error hl (Body.keepsFractions_build hbody)).2 ⟨he, hbeyond⟩⟩
  refine ⟨Imports.exists_resolve_none r l body, ?_, ?_, Expression.lines_ne_nil⟩
  · cases hwrite : write l r body imports with
    | ok text => exact .inl ⟨text, rfl⟩
    | error e => exact .inr (by rw [((hfault e).1 hwrite).1])
  · rw [hfault, and_iff_right rfl]

/-- A request with the body `[[]]`. -/
def nestedRequest : ResolvedRequest :=
  { Imports.partRequest with body := some [0x5B, 0x5B, 0x5D, 0x5D] }

/-- The graph of that body. -/
def nestedGraph : BodyGraph where
  root := .array none [.array none []]

theorem write_fails_beyond_doubles_nested :
    (Body.build nestedRequest).outcome = .ok (some nestedGraph) ∧
      ∀ l : Language,
        (∃ lines, Imports.resolve nestedRequest l (some nestedGraph) none = .ok lines) ∧
        ∃ text, write l nestedRequest (some nestedGraph) [] = .ok text := by
  have hbuild : (Body.build nestedRequest).outcome = .ok (some nestedGraph) := rfl
  refine ⟨hbuild, fun l => ?_⟩
  obtain ⟨himports, hwrite | hwrite, hfault, -⟩ := write_fails_beyond_doubles l hbuild []
  · exact ⟨himports, hwrite⟩
  · -- a body without numbers has none that is too large
    obtain ⟨-, g, hg, n, hn, hbeyond⟩ := hfault.1 hwrite
    obtain rfl := Option.some.inj hg
    simp only [nestedGraph, BodyNode.walk, BodyNode.walkAll, List.append_nil, List.mem_cons,
      List.not_mem_nil, or_false] at hn
    rcases hn with rfl | rfl <;> cases hbeyond

end Snippet

end ApiSnippets
