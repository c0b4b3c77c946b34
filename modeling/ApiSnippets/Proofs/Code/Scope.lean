import Mathlib.Data.List.Perm.Basic
import ApiSnippets.Code.Statement
import ApiSnippets.Proofs.Code.Locals
import ApiSnippets.Proofs.Outcome
/-!
# Scopes of variables

A body written as statements is well scoped: every container of the body is
declared exactly once, under a name of its own, and a statement refers only to
what is declared above it. Names are threaded through three walks that call
each other; what any of them writes is a `Part`, and parts are put together in
the four ways of `Writes.append`, `Part.assign`, `Writes.declareFirst` and
`Writes.declareLast`.
-/

namespace ApiSnippets

/-- What is declared for a container, apart from its name. -/
inductive Container where
  | object (type : TypeRef)
  | list (item : Option ItemType) (size : Nat)
  | map (keys : List String)
  deriving DecidableEq, Repr

/-- The container that a node is. -/
def BodyNode.container? : BodyNode → Option Container
  | object t _ _ => some (.object t)
  | array item es => some (.list item es.length)
  | map ms => some (.map (ms.map Prod.fst))
  | _ => none

/-- The container that a statement declares a variable for. -/
def Statement.container? : Statement → Option Container
  | object _ t => some (.object t)
  | list _ item es => some (.list item es.length)
  | map _ es => some (.map (es.map Prod.fst))
  | _ => none

namespace SetterStyle

open scoped List

variable {d : Dialect} {s : SetterStyle}
variable {known known' taken taken₁ taken₂ : List String} {name owner member text : String}
variable {ss ts : List Statement} {st : Statement} {ns ms : List BodyNode} {n : BodyNode}
variable {op : Operand} {ops ops' : List Operand}

/-! ## What statements declare and use -/

/-- The variables that statements declare. -/
def declared (ss : List Statement) : List String :=
  ss.filterMap Statement.declared?

@[simp] theorem declared_nil : declared [] = [] := rfl

@[simp] theorem declared_append : declared (ss ++ ts) = declared ss ++ declared ts :=
  List.filterMap_append

theorem declared_cons : declared (st :: ss) = st.declared?.toList ++ declared ss := by
  cases h : st.declared? <;> simp [declared, h]

/-- That every statement refers only to known variables and to those declared
above it. -/
def Scoped : List String → List Statement → Prop
  | _, [] => True
  | known, st :: ss => st.used ⊆ known ∧ Scoped (known ++ st.declared?.toList) ss

theorem Scoped.mono (h : Scoped known ss) (hsub : known ⊆ known') : Scoped known' ss := by
  induction ss generalizing known known' with
  | nil => trivial
  | cons st ss ih =>
    refine ⟨fun v hv => hsub (h.1 hv), ih h.2 ?_⟩
    exact List.append_subset.2 ⟨fun v hv => List.mem_append_left _ (hsub hv),
      List.subset_append_right _ _⟩

theorem scoped_append :
    Scoped known (ss ++ ts) ↔ Scoped known ss ∧ Scoped (known ++ declared ss) ts := by
  induction ss generalizing known with
  | nil => simp [Scoped]
  | cons st ss ih => simp [Scoped, ih, declared_cons, and_assoc]

/-- Above a statement stand the declarations of all it refers to. -/
theorem Scoped.used_subset (h : Scoped [] (ss ++ st :: ts)) : st.used ⊆ declared ss := by
  simpa using (scoped_append.1 h).2.1

/-! ## Parts -/

/-- What is written for some nodes where some variables are known: statements
in scope, with one declaration for each container and, as the names taken grow,
with new names only. -/
structure Part (known : List String) (ns : List BodyNode) (ss : List Statement)
    (taken taken₁ : List String) : Prop where
  inScope : Scoped known ss
  containers : ss.filterMap Statement.container? ~ ns.filterMap BodyNode.container?
  names : taken₁ ~ declared ss ++ taken
  nodup : taken.Nodup → taken₁.Nodup

/-- A part that needs no variable of its surroundings, and operands that refer
to what it declares. -/
structure Writes (ns : List BodyNode) (ss : List Statement) (ops : List Operand)
    (taken taken₁ : List String) : Prop extends Part [] ns ss taken taken₁ where
  refers : ops.filterMap Operand.name? ⊆ declared ss

theorem Part.nil : Part known [] [] taken taken :=
  ⟨trivial, .nil, .refl _, id⟩

/-- Parts one after the other. -/
theorem Part.append (h : Part known ns ss taken taken₁) (h' : Part known' ms ts taken₁ taken₂)
    (hknown : known' ⊆ known ++ declared ss) : Part known (ns ++ ms) (ss ++ ts) taken taken₂ where
  inScope := scoped_append.2 ⟨h.inScope, h'.inScope.mono hknown⟩
  containers := by
    rw [List.filterMap_append, List.filterMap_append]
    exact h.containers.append h'.containers
  names := by
    calc
      taken₂ ~ declared ts ++ taken₁ := h'.names
      _ ~ declared ts ++ (declared ss ++ taken) := h.names.append_left _
      _ ~ declared (ss ++ ts) ++ taken := by
        rw [declared_append, ← List.append_assoc]
        exact List.perm_append_comm.append_right _
  nodup := fun hnodup => h'.nodup (h.nodup hnodup)

/-- A member that is assigned what was written before it. -/
theorem Part.assign (h : Writes ns ss [op] taken taken₁) (h' : Part [owner] ms ts taken₁ taken₂) :
    Part [owner] (ns ++ ms) (ss ++ .assign owner member op :: ts) taken taken₂ := by
  have hst : Part (owner :: declared ss) [] [.assign owner member op] taken₁ taken₁ := by
    refine ⟨⟨?_, trivial⟩, .nil, .refl _, id⟩
    refine List.cons_subset.2 ⟨List.mem_cons_self, fun v hv => ?_⟩
    refine List.mem_cons_of_mem _ (h.refers ?_)
    simpa [List.mem_filterMap] using hv
  have hbefore : Part [owner] ns ss taken taken₁ :=
    ⟨h.inScope.mono (List.nil_subset _), h.containers, h.names, h.nodup⟩
  exact hbefore.append (hst.append h' (by simp)) (by simp)

namespace Writes

theorem nil : Writes [] [] [] taken taken :=
  ⟨.nil, List.nil_subset _⟩

theorem append (h : Writes ns ss ops taken taken₁) (h' : Writes ms ts ops' taken₁ taken₂) :
    Writes (ns ++ ms) (ss ++ ts) (ops ++ ops') taken taken₂ := by
  refine ⟨h.toPart.append h'.toPart (List.nil_subset _), ?_⟩
  rw [List.filterMap_append, declared_append]
  exact List.append_subset.2 ⟨fun v hv => List.mem_append_left _ (h.refers hv),
    fun v hv => List.mem_append_right _ (h'.refers hv)⟩

/-- A container that is declared before its parts are written. -/
theorem declareFirst (hst : st.declared? = some name) (hn : st.container? = n.container?)
    (hused : st.used = []) (hname : name ∉ taken) (h : Part [name] ns ss (name :: taken) taken₁) :
    Writes (n :: ns) (st :: ss) [.named name] taken taken₁ where
  inScope := by
    refine ⟨by simp [hused], ?_⟩
    rw [hst]
    exact h.inScope
  containers := by
    cases hc : n.container? <;> simp [hn, hc, h.containers]
  names := by
    calc
      taken₁ ~ declared ss ++ name :: taken := h.names
      _ ~ name :: (declared ss ++ taken) := List.perm_middle
      _ ~ declared (st :: ss) ++ taken := by
        rw [declared_cons, hst]
        rfl
  nodup := fun hnodup => h.nodup (List.nodup_cons.2 ⟨hname, hnodup⟩)
  refers := by simp [declared_cons, hst, Operand.name?]

/-- A container that is declared after its parts were written. -/
theorem declareLast (hst : st.declared? = some name) (hn : st.container? = n.container?)
    (hused : st.used = ops.filterMap Operand.name?) (hname : name ∉ taken)
    (h : Writes ns ss ops (name :: taken) taken₁) :
    Writes (n :: ns) (ss ++ [st]) [.named name] taken taken₁ where
  inScope := by
    refine scoped_append.2 ⟨h.inScope, ?_, trivial⟩
    rw [hused]
    exact h.refers
  containers := by
    rw [List.filterMap_append, List.filterMap_cons, List.filterMap_cons, hn]
    cases n.container? with
    | none => simpa using h.containers
    | some c => exact (List.perm_append_singleton _ _).trans (h.containers.cons c)
  names := by
    calc
      taken₁ ~ declared ss ++ name :: taken := h.names
      _ ~ declared (ss ++ [st]) ++ taken := by
        rw [declared_append, declared_cons, hst, List.append_assoc]
        rfl
  nodup := fun hnodup => h.nodup (List.nodup_cons.2 ⟨hname, hnodup⟩)
  refers := by simp [declared_cons, hst, Operand.name?]

end Writes

/-! ## Values without parts -/

theorem container?_of_not_isContainer (h : n.isContainer = false) : n.container? = none := by
  cases n <;> simp_all [BodyNode.isContainer, BodyNode.container?]

theorem writes_literal (text : String) (taken : List String) (hn : n.isContainer = false) :
    Writes n.walk [] [.literal text] taken taken where
  inScope := trivial
  containers := by simp [BodyNode.walk_of_not_isContainer hn, container?_of_not_isContainer hn]
  names := .refl _
  nodup := id
  refers := by simp [Operand.name?]

/-- A statement that binds a plain value to a new variable. -/
theorem writes_bindScalar (hn : n.isContainer = false) (hname : name ∉ taken) :
    Writes n.walk [bindScalar name text n] [.address name] taken (name :: taken) := by
  have hst : (bindScalar name text n).declared? = some name ∧
      (bindScalar name text n).used = [] ∧ (bindScalar name text n).container? = none := by
    unfold bindScalar
    split <;> exact ⟨rfl, rfl, rfl⟩
  obtain ⟨hdeclared, hused, hcontainer⟩ := hst
  exact {
    inScope := by simp [Scoped, hused]
    containers := by
      simp [BodyNode.walk_of_not_isContainer hn, container?_of_not_isContainer hn, hcontainer]
    names := by simp [declared, hdeclared]
    nodup := fun hnodup => List.nodup_cons.2 ⟨hname, hnodup⟩
    refers := by simp [declared, hdeclared, Operand.name?] }

theorem writes_scalarOperand (hn : n.isContainer = false)
    (h : scalarOperand d s taken name n = .ok (ss, op, taken₁)) :
    Writes n.walk ss [op] taken taken₁ := by
  obtain ⟨text, -, h⟩ := Outcome.bind_eq_ok.1 h
  split at h
  · cases Outcome.pure_eq_ok.1 h
    exact writes_bindScalar hn (Locals.allocate_not_mem d taken name)
  · cases Outcome.pure_eq_ok.1 h
    exact writes_literal text taken hn

/-! ## The walks -/

mutual

/-- A container is written under a name that is new. -/
theorem writes_declare : ∀ (n : BodyNode) (name : String) (taken : List String)
    (ss : List Statement) (taken₁ : List String), n.isContainer = true → name ∉ taken →
    declare d s name (name :: taken) n = .ok (ss, taken₁) →
    Writes n.walk ss [.named name] taken taken₁
  | .object type members derived, name, taken, ss, taken₁, _, hname, h => by
    obtain ⟨⟨ts, taken₂⟩, hts, h⟩ := Outcome.bind_eq_ok.1 h
    cases Outcome.pure_eq_ok.1 h
    -- an object has its variable before its members are assigned to it
    exact .declareFirst rfl rfl rfl hname (part_assignAll members name _ ts taken₁ hts)
  | .array item elements, name, taken, ss, taken₁, _, hname, h => by
    obtain ⟨⟨ts, ops, taken₂⟩, hts, h⟩ := Outcome.bind_eq_ok.1 h
    cases Outcome.pure_eq_ok.1 h
    obtain ⟨hlength, helements⟩ := writes_operandAll elements _ ts ops taken₁ hts
    have hcontainer : (Statement.list name item ops).container? =
        (BodyNode.array item elements).container? := by
      simp [Statement.container?, BodyNode.container?, hlength]
    -- a list refers to its elements, so it is written behind them
    exact .declareLast rfl hcontainer rfl hname helements
  | .map members, name, taken, ss, taken₁, _, hname, h => by
    obtain ⟨⟨ts, entries, taken₂⟩, hts, h⟩ := Outcome.bind_eq_ok.1 h
    cases Outcome.pure_eq_ok.1 h
    obtain ⟨hkeys, hentries⟩ := writes_entryAll members _ ts entries taken₁ hts
    have hcontainer : (Statement.map name entries).container? =
        (BodyNode.map members).container? := by
      simp [Statement.container?, BodyNode.container?, hkeys]
    have hused : (Statement.map name entries).used =
        (entries.map Prod.snd).filterMap Operand.name? := by
      rw [List.filterMap_map]
      rfl
    exact .declareLast rfl hcontainer hused hname hentries
  | .string _, _, _, _, _, hn, _, _ | .number _ _, _, _, _, _, hn, _, _
  | .boolean _, _, _, _, _, hn, _, _ | .guid _, _, _, _, _, hn, _, _
  | .datetime _ _, _, _, _, _, hn, _, _ | .binary _, _, _, _, _, hn, _, _
  | .stream _, _, _, _, _, hn, _, _ | .enum _ _ _, _, _, _, _, hn, _, _
  | .null, _, _, _, _, hn, _, _ => absurd hn Bool.false_ne_true

/-- The members of an object are assigned to its variable. -/
theorem part_assignAll : ∀ (members : List (String × BodyNode)) (owner : String)
    (taken : List String) (ss : List Statement) (taken₁ : List String),
    assignAll d s owner taken members = .ok (ss, taken₁) →
    Part [owner] (BodyNode.walkMembers members) ss taken taken₁
  | [], owner, taken, ss, taken₁, h => by
    rw [assignAll] at h
    cases Except.ok.inj h
    exact .nil
  | (member, n) :: members, owner, taken, ss, taken₁, h => by
    rw [assignAll] at h
    split at h
    · next hn =>
      obtain ⟨⟨ts, taken₂⟩, hts, h⟩ := Outcome.bind_eq_ok.1 h
      obtain ⟨⟨rest, taken₃⟩, hrest, h⟩ := Outcome.bind_eq_ok.1 h
      cases Outcome.pure_eq_ok.1 h
      have hnode := writes_declare n _ taken ts taken₂ hn (Locals.allocate_not_mem d taken _) hts
      exact .assign hnode (part_assignAll members owner taken₂ rest taken₁ hrest)
    · next hn =>
      obtain ⟨⟨ts, op, taken₂⟩, hts, h⟩ := Outcome.bind_eq_ok.1 h
      obtain ⟨⟨rest, taken₃⟩, hrest, h⟩ := Outcome.bind_eq_ok.1 h
      cases Outcome.pure_eq_ok.1 h
      have hnode := writes_scalarOperand (by simpa using hn) hts
      exact .assign hnode (part_assignAll members owner taken₂ rest taken₁ hrest)

/-- Elements have one operand each. -/
theorem writes_operandAll : ∀ (elements : List BodyNode) (taken : List String)
    (ss : List Statement) (ops : List Operand) (taken₁ : List String),
    operandAll d s taken elements = .ok (ss, ops, taken₁) →
    ops.length = elements.length ∧ Writes (BodyNode.walkAll elements) ss ops taken taken₁
  | [], taken, ss, ops, taken₁, h => by
    rw [operandAll] at h
    cases Except.ok.inj h
    exact ⟨rfl, .nil⟩
  | n :: elements, taken, ss, ops, taken₁, h => by
    rw [operandAll] at h
    split at h
    · next hn =>
      obtain ⟨⟨ts, taken₂⟩, hts, h⟩ := Outcome.bind_eq_ok.1 h
      obtain ⟨⟨rest, ops', taken₃⟩, hrest, h⟩ := Outcome.bind_eq_ok.1 h
      cases Outcome.pure_eq_ok.1 h
      have hnode := writes_declare n _ taken ts taken₂ hn (Locals.allocate_not_mem d taken _) hts
      obtain ⟨hlength, helements⟩ := writes_operandAll elements taken₂ rest ops' taken₁ hrest
      exact ⟨congrArg Nat.succ hlength, hnode.append helements⟩
    · next hn =>
      obtain ⟨text, -, h⟩ := Outcome.bind_eq_ok.1 h
      obtain ⟨⟨rest, ops', taken₃⟩, hrest, h⟩ := Outcome.bind_eq_ok.1 h
      cases Outcome.pure_eq_ok.1 h
      have hnode := writes_literal text taken (by simpa using hn)
      obtain ⟨hlength, helements⟩ := writes_operandAll elements taken ss ops' taken₁ hrest
      exact ⟨congrArg Nat.succ hlength, hnode.append helements⟩

/-- Entries have one operand each. -/
theorem writes_entryAll : ∀ (members : List (String × BodyNode)) (taken : List String)
    (ss : List Statement) (entries : List (String × Operand)) (taken₁ : List String),
    entryAll d s taken members = .ok (ss, entries, taken₁) →
    entries.map Prod.fst = members.map Prod.fst ∧
      Writes (BodyNode.walkMembers members) ss (entries.map Prod.snd) taken taken₁
  | [], taken, ss, entries, taken₁, h => by
    rw [entryAll] at h
    cases Except.ok.inj h
    exact ⟨rfl, .nil⟩
  | (key, n) :: members, taken, ss, entries, taken₁, h => by
    rw [entryAll] at h
    split at h
    · next hn =>
      obtain ⟨⟨ts, taken₂⟩, hts, h⟩ := Outcome.bind_eq_ok.1 h
      obtain ⟨⟨rest, entries', taken₃⟩, hrest, h⟩ := Outcome.bind_eq_ok.1 h
      cases Outcome.pure_eq_ok.1 h
      have hnode := writes_declare n _ taken ts taken₂ hn (Locals.allocate_not_mem d taken _) hts
      obtain ⟨hkeys, hentries⟩ := writes_entryAll members taken₂ rest entries' taken₁ hrest
      exact ⟨congrArg (key :: ·) hkeys, hnode.append hentries⟩
    · next hn =>
      obtain ⟨text, -, h⟩ := Outcome.bind_eq_ok.1 h
      obtain ⟨⟨rest, entries', taken₃⟩, hrest, h⟩ := Outcome.bind_eq_ok.1 h
      cases Outcome.pure_eq_ok.1 h
      have hnode := writes_literal text taken (by simpa using hn)
      obtain ⟨hkeys, hentries⟩ := writes_entryAll members taken ss entries' taken₁ hrest
      exact ⟨congrArg (key :: ·) hkeys, hnode.append hentries⟩

end

/-! ## Where names come from -/

/-- That a name is one that was asked for with some hint. -/
def Allocated (d : Dialect) (v : String) : Prop :=
  ∃ taken hint, v = (Locals.allocate d taken hint).1

theorem allocated (d : Dialect) (taken : List String) (hint : String) :
    Allocated d (Locals.allocate d taken hint).1 :=
  ⟨taken, hint, rfl⟩

theorem allocated_scalarOperand
    (h : scalarOperand d s taken name n = .ok (ss, op, taken₁)) :
    ∀ v ∈ declared ss, Allocated d v := by
  obtain ⟨text, -, h⟩ := Outcome.bind_eq_ok.1 h
  split at h
  · cases Outcome.pure_eq_ok.1 h
    intro v hv
    have hname : v = (Locals.allocate d taken name).1 := by
      unfold bindScalar at hv
      split at hv <;> exact List.mem_singleton.1 hv
    exact hname ▸ allocated d taken name
  · cases Outcome.pure_eq_ok.1 h
    intro v hv
    cases hv

mutual

/-- **Every variable has an allocated name.** The variable of the container
itself has the name it is given. -/
theorem allocated_declare : ∀ (n : BodyNode) (name : String) (taken : List String)
    (ss : List Statement) (taken₁ : List String), Allocated d name →
    declare d s name taken n = .ok (ss, taken₁) → ∀ v ∈ declared ss, Allocated d v
  | .object type members derived, name, taken, ss, taken₁, hname, h => by
    obtain ⟨⟨ts, taken₂⟩, hts, h⟩ := Outcome.bind_eq_ok.1 h
    cases Outcome.pure_eq_ok.1 h
    have hmembers := allocated_assignAll members name taken ts taken₁ hts
    exact List.forall_mem_cons.2 ⟨hname, hmembers⟩
  | .array item elements, name, taken, ss, taken₁, hname, h => by
    obtain ⟨⟨ts, ops, taken₂⟩, hts, h⟩ := Outcome.bind_eq_ok.1 h
    cases Outcome.pure_eq_ok.1 h
    have helements := allocated_operandAll elements taken ts ops taken₁ hts
    rw [declared_append]
    exact List.forall_mem_append.2 ⟨helements, List.forall_mem_singleton.2 hname⟩
  | .map members, name, taken, ss, taken₁, hname, h => by
    obtain ⟨⟨ts, entries, taken₂⟩, hts, h⟩ := Outcome.bind_eq_ok.1 h
    cases Outcome.pure_eq_ok.1 h
    have hentries := allocated_entryAll members taken ts entries taken₁ hts
    rw [declared_append]
    exact List.forall_mem_append.2 ⟨hentries, List.forall_mem_singleton.2 hname⟩
  | .string _, _, _, _, _, _, h | .number _ _, _, _, _, _, _, h
  | .boolean _, _, _, _, _, _, h | .guid _, _, _, _, _, _, h
  | .datetime _ _, _, _, _, _, _, h | .binary _, _, _, _, _, _, h
  | .stream _, _, _, _, _, _, h | .enum _ _ _, _, _, _, _, _, h
  | .null, _, _, _, _, _, h => by
    cases Except.ok.inj h
    intro v hv
    cases hv

theorem allocated_assignAll : ∀ (members : List (String × BodyNode)) (owner : String)
    (taken : List String) (ss : List Statement) (taken₁ : List String),
    assignAll d s owner taken members = .ok (ss, taken₁) → ∀ v ∈ declared ss, Allocated d v
  | [], owner, taken, ss, taken₁, h => by
    rw [assignAll] at h
    cases Except.ok.inj h
    intro v hv
    cases hv
  | (member, n) :: members, owner, taken, ss, taken₁, h => by
    rw [assignAll] at h
    split at h
    · obtain ⟨⟨ts, taken₂⟩, hts, h⟩ := Outcome.bind_eq_ok.1 h
      obtain ⟨⟨rest, taken₃⟩, hrest, h⟩ := Outcome.bind_eq_ok.1 h
      cases Outcome.pure_eq_ok.1 h
      rw [declared_append]
      exact List.forall_mem_append.2 ⟨allocated_declare n _ _ ts taken₂ (allocated d _ _) hts,
        allocated_assignAll members owner taken₂ rest taken₁ hrest⟩
    · obtain ⟨⟨ts, op, taken₂⟩, hts, h⟩ := Outcome.bind_eq_ok.1 h
      obtain ⟨⟨rest, taken₃⟩, hrest, h⟩ := Outcome.bind_eq_ok.1 h
      cases Outcome.pure_eq_ok.1 h
      rw [declared_append]
      exact List.forall_mem_append.2 ⟨allocated_scalarOperand hts,
        allocated_assignAll members owner taken₂ rest taken₁ hrest⟩

theorem allocated_operandAll : ∀ (elements : List BodyNode) (taken : List String)
    (ss : List Statement) (ops : List Operand) (taken₁ : List String),
    operandAll d s taken elements = .ok (ss, ops, taken₁) → ∀ v ∈ declared ss, Allocated d v
  | [], taken, ss, ops, taken₁, h => by
    rw [operandAll] at h
    cases Except.ok.inj h
    intro v hv
    cases hv
  | n :: elements, taken, ss, ops, taken₁, h => by
    rw [operandAll] at h
    split at h
    · obtain ⟨⟨ts, taken₂⟩, hts, h⟩ := Outcome.bind_eq_ok.1 h
      obtain ⟨⟨rest, ops', taken₃⟩, hrest, h⟩ := Outcome.bind_eq_ok.1 h
      cases Outcome.pure_eq_ok.1 h
      rw [declared_append]
      exact List.forall_mem_append.2 ⟨allocated_declare n _ _ ts taken₂ (allocated d _ _) hts,
        allocated_operandAll elements taken₂ rest ops' taken₁ hrest⟩
    · obtain ⟨text, -, h⟩ := Outcome.bind_eq_ok.1 h
      obtain ⟨⟨rest, ops', taken₃⟩, hrest, h⟩ := Outcome.bind_eq_ok.1 h
      cases Outcome.pure_eq_ok.1 h
      exact allocated_operandAll elements taken ss ops' taken₁ hrest

theorem allocated_entryAll : ∀ (members : List (String × BodyNode)) (taken : List String)
    (ss : List Statement) (entries : List (String × Operand)) (taken₁ : List String),
    entryAll d s taken members = .ok (ss, entries, taken₁) → ∀ v ∈ declared ss, Allocated d v
  | [], taken, ss, entries, taken₁, h => by
    rw [entryAll] at h
    cases Except.ok.inj h
    intro v hv
    cases hv
  | (key, n) :: members, taken, ss, entries, taken₁, h => by
    rw [entryAll] at h
    split at h
    · obtain ⟨⟨ts, taken₂⟩, hts, h⟩ := Outcome.bind_eq_ok.1 h
      obtain ⟨⟨rest, entries', taken₃⟩, hrest, h⟩ := Outcome.bind_eq_ok.1 h
      cases Outcome.pure_eq_ok.1 h
      rw [declared_append]
      exact List.forall_mem_append.2 ⟨allocated_declare n _ _ ts taken₂ (allocated d _ _) hts,
        allocated_entryAll members taken₂ rest entries' taken₁ hrest⟩
    · obtain ⟨text, -, h⟩ := Outcome.bind_eq_ok.1 h
      obtain ⟨⟨rest, entries', taken₃⟩, hrest, h⟩ := Outcome.bind_eq_ok.1 h
      cases Outcome.pure_eq_ok.1 h
      exact allocated_entryAll members taken ss entries' taken₁ hrest

end

theorem allocated_body {root : BodyNode} (h : s.body d root = .ok (ss, op)) :
    ∀ v ∈ declared ss, Allocated d v := by
  unfold body at h
  split at h
  · cases Except.ok.inj h
    exact List.forall_mem_singleton.2 (allocated d _ _)
  · split at h
    · obtain ⟨⟨ts, taken⟩, hts, h⟩ := Outcome.bind_eq_ok.1 h
      cases Outcome.pure_eq_ok.1 h
      exact allocated_declare root _ _ ss taken (allocated d _ _) hts
    · obtain ⟨text, -, h⟩ := Outcome.bind_eq_ok.1 h
      cases Outcome.pure_eq_ok.1 h
      intro v hv
      cases hv

/-! ## Bodies -/

/-- Statements for a body, and the operand that stands for it, in good order. -/
structure WellScoped (d : Dialect) (root : BodyNode) (ss : List Statement) (op : Operand) :
    Prop where
  /-- Every container is declared exactly once, and nothing else is as one. -/
  containers : ss.filterMap Statement.container? ~ root.walk.filterMap BodyNode.container?
  distinct : (declared ss).Nodup
  unreserved : ∀ v ∈ declared ss, v ∉ d.reservedLocals
  /-- A statement refers only to what is declared above it. -/
  above : ∀ before st after, ss = before ++ st :: after → st.used ⊆ declared before
  argument : op.name?.toList ⊆ declared ss
  /-- A container is passed on as its variable. -/
  named : root.isContainer = true → ∃ v ∈ declared ss, op = .named v

/-- What a statement refers to is declared. -/
theorem WellScoped.mem_declared {root : BodyNode} {v : String} (h : WellScoped d root ss op)
    (hst : st ∈ ss) (hv : v ∈ st.used) : v ∈ declared ss := by
  obtain ⟨before, after, rfl⟩ := List.append_of_mem hst
  rw [declared_append]
  exact List.mem_append_left _ (h.above before st after rfl hv)

theorem Writes.wellScoped {root : BodyNode} (h : Writes root.walk ss [op] d.reservedLocals taken)
    (hreserved : d.reservedLocals.Nodup)
    (hnamed : root.isContainer = true → ∃ v, op = .named v) : WellScoped d root ss op := by
  have hnodup : (declared ss ++ d.reservedLocals).Nodup := h.names.nodup_iff.1 (h.nodup hreserved)
  rw [List.nodup_append] at hnodup
  exact {
    containers := h.containers
    distinct := hnodup.1
    unreserved := fun v hv hreserved => hnodup.2.2 v hv v hreserved rfl
    above := by
      rintro before st after rfl
      exact h.inScope.used_subset
    argument := by
      intro v hv
      exact h.refers (by simpa [List.mem_filterMap] using hv)
    named := by
      intro hroot
      obtain ⟨v, rfl⟩ := hnamed hroot
      exact ⟨v, h.refers (by simp [Operand.name?]), rfl⟩ }

/-- **A body written as statements is well scoped**, in every language whose
reserved names differ from each other. -/
theorem wellScoped_body {root : BodyNode} (hreserved : d.reservedLocals.Nodup)
    (h : s.body d root = .ok (ss, op)) : WellScoped d root ss op := by
  unfold body at h
  split at h
  · next bs =>
    cases Except.ok.inj h
    have hstream : Writes (BodyNode.stream bs).walk
        [.stream (Locals.allocate d d.reservedLocals "requestBody").1 (Base64.encode bs)]
        [.named (Locals.allocate d d.reservedLocals "requestBody").1] d.reservedLocals
        (Locals.allocate d d.reservedLocals "requestBody").2 :=
      .declareLast rfl rfl rfl (Locals.allocate_not_mem d _ _) .nil
    exact hstream.wellScoped hreserved fun _ => ⟨_, rfl⟩
  · split at h
    · next hn =>
      obtain ⟨⟨ts, taken⟩, hts, h⟩ := Outcome.bind_eq_ok.1 h
      cases Outcome.pure_eq_ok.1 h
      have hnode := writes_declare root _ _ ss taken hn (Locals.allocate_not_mem d _ _) hts
      exact hnode.wellScoped hreserved fun _ => ⟨_, rfl⟩
    · next hn =>
      obtain ⟨text, -, h⟩ := Outcome.bind_eq_ok.1 h
      cases Outcome.pure_eq_ok.1 h
      have hnode := writes_literal text d.reservedLocals (by simpa using hn)
      exact hnode.wellScoped hreserved fun h => absurd h hn

end SetterStyle

end ApiSnippets
