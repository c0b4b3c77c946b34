import Mathlib.Data.List.Count
import Mathlib.Data.List.Nodup
import Mathlib.Data.List.Perm.Subperm
import ApiSnippets.Proofs.Entries
import ApiSnippets.Proofs.Outcome
import ApiSnippets.Proofs.Request.Token
import ApiSnippets.Resolution.Classify
import ApiSnippets.Resolution.Match
/-!
# Calls and the order of their arguments

The child that a call matches and the segment it becomes do not depend on the
order of its arguments, and no argument is lost in silence
(`PathNode.call_in_any_order`). A call is compared with the children as a text
first, which is where the order could matter: a child with the same letters is
the one child whose name and argument names agree with the call's, and so it is
the best one by these names as well (`matchCall?_of_sameLetters`).
-/

namespace ApiSnippets

open Call (Token)

namespace PathNode

variable {n c d : PathNode} {t t' : Token} {wanted wanted' : List String}

/-! ## The best child -/

theorem mem_of_firstBest {α : Type} {better : α → α → Bool} {xs : List α} {x : α}
    (h : firstBest better xs = some x) : x ∈ xs := by
  induction xs generalizing x with
  | nil => cases h
  | cons y ys ih =>
    rw [firstBest] at h
    split at h
    · next hnone =>
      obtain rfl := Option.some.inj h
      exact List.mem_cons_self
    · next z hz =>
      split at h
      · obtain rfl := Option.some.inj h
        exact List.mem_cons_of_mem _ (ih hz)
      · obtain rfl := Option.some.inj h
        exact List.mem_cons_self

/-- An element that is better than those before it, and than which none behind
it is better, is the first best. -/
theorem firstBest_append {α : Type} {better : α → α → Bool} {before after : List α} {x : α}
    (hbefore : ∀ y ∈ before, better x y = true) (hafter : ∀ y ∈ after, better y x = false) :
    firstBest better (before ++ x :: after) = some x := by
  induction before with
  | nil =>
    rw [List.nil_append, firstBest]
    cases hbest : firstBest better after with
    | none => rfl
    | some y => simp [hafter y (mem_of_firstBest hbest)]
  | cons y before ih =>
    obtain ⟨hy, hbefore⟩ := List.forall_mem_cons.1 hbefore
    rw [List.cons_append, firstBest, ih hbefore]
    simp [hy]

/-- That a template declares the arguments that are wanted and no others. -/
def Declares (c : PathNode) (wanted : List String) : Prop :=
  ∀ name, name ∈ argumentNames c.segment ↔ name ∈ wanted

/-- **A template that declares what is wanted is better than any other.** Its
names are the most that can be in common, and another template with as many in
common has names beyond them. -/
theorem agreesBetter_of_declares (hc : c.Declares wanted) (hd : ¬ d.Declares wanted) :
    agreesBetter wanted c d = true ∧ agreesBetter wanted d c = false := by
  have hfull : (argumentNames c.segment).filter wanted.contains = argumentNames c.segment :=
    List.filter_eq_self.2 fun name hname => by simpa using (hc name).1 hname
  have hcommon : (argumentNames d.segment).filter wanted.contains ⊆ argumentNames c.segment := by
    intro name hname
    have hwanted : name ∈ wanted := by simpa using List.of_mem_filter hname
    exact (hc name).2 hwanted
  have hnodup : (argumentNames d.segment).Nodup := nodup_eraseDups _
  have hsubperm := (hnodup.filter wanted.contains).subperm hcommon
  have hle := hsubperm.length_le
  -- with as many in common, the other template has all of them and one that is not wanted
  have hbeyond : ((argumentNames d.segment).filter wanted.contains).length =
      (argumentNames c.segment).length →
      (argumentNames c.segment).length < (argumentNames d.segment).length := by
    intro heq
    have hperm := hsubperm.perm_of_length_le heq.ge
    refine Nat.lt_of_le_of_ne (heq ▸ List.length_filter_le _ _) fun hsize => hd fun name => ?_
    have hall : (argumentNames d.segment).filter wanted.contains = argumentNames d.segment :=
      List.filter_sublist.eq_of_length (heq.trans hsize)
    rw [hall] at hperm
    rw [hperm.mem_iff, hc name]
  simp only [agreesBetter, hfull, Bool.or_eq_true, decide_eq_true_eq, Bool.and_eq_true, beq_iff_eq,
    Bool.or_eq_false_iff, decide_eq_false_iff_not, Bool.and_eq_false_iff, beq_eq_false_iff_ne]
  refine ⟨?_, by omega, ?_⟩
  · rcases Nat.lt_or_ge ((argumentNames d.segment).filter wanted.contains).length
      (argumentNames c.segment).length with hlt | hge
    · exact .inl hlt
    · have heq := Nat.le_antisymm hle hge
      exact .inr ⟨heq.symm, hbeyond heq⟩
  · by_cases heq : ((argumentNames d.segment).filter wanted.contains).length =
        (argumentNames c.segment).length
    · exact .inr (by have := hbeyond heq; omega)
    · exact .inl heq

theorem agreesBetter_congr (h : ∀ name, name ∈ wanted ↔ name ∈ wanted') :
    agreesBetter wanted = agreesBetter wanted' := by
  have hcontains : wanted.contains = wanted'.contains := by
    funext name
    rw [Bool.eq_iff_iff, List.contains_iff_mem, List.contains_iff_mem, h]
  funext c d
  simp only [agreesBetter, hcontains]

/-! ## Matching -/

/-- The calls among the children of a node differ in their short name or in
the names of their arguments, letter case aside. -/
def DistinctCalls (n : PathNode) : Prop :=
  n.children.Pairwise fun c d => c.hasArguments = true → d.hasArguments = true →
    Text.sameLetters (callName c.segment) (callName d.segment) = true →
      ¬ c.Declares (argumentNames d.segment)

/-- A capital sigma has two lower-case forms. The short names of a call and of
the children are without one. -/
def NoSigma (n : PathNode) (t : Token) : Prop :=
  'Σ' ∉ (Text.lastComponent t.name).toList ∧
    ∀ c ∈ n.children, c.hasArguments = true → 'Σ' ∉ (callName c.segment).toList

theorem callName_text (t : Token) : callName t.text = Text.lastComponent t.name := by
  rw [callName, Token.ofSegment_text]

theorem mem_argumentNames_text (t : Token) (name : String) :
    name ∈ argumentNames t.text ↔ name ∈ t.arguments.map fun a => Text.lower a.name := by
  rw [argumentNames, List.mem_eraseDups, Token.ofSegment_text]
  simp [Entries.keys]

/-- A child with the letters of a call is a candidate for it, and declares its
arguments. -/
theorem candidate_of_sameLetters (hsigma : n.NoSigma t) (hc : c ∈ n.children)
    (h : Text.sameLetters c.segment t.text = true) :
    c.hasArguments = true ∧
      Text.sameLetters (callName c.segment) (callName t.text) = true ∧
      c.Declares (argumentNames t.text) := by
  obtain ⟨hopen, hclose, ⟨ls, hsegment, htoken⟩, hnames⟩ := Token.parts_of_sameLetters h
  have harguments : c.hasArguments = true := by
    rw [hasArguments, isCall, hopen, hclose]
    rfl
  have hdot : Text.isCaseless '.' = true := by decide
  have hchild : 'Σ' ∉ Text.afterLast '.' (Call.ofSegment c.segment).name.toList := by
    simpa [callName, Text.lastComponent] using hsigma.2 c hc harguments
  have htext : 'Σ' ∉ Text.afterLast '.' t.name.toList := by
    simpa [Text.lastComponent] using hsigma.1
  refine ⟨harguments, ?_, fun name => ?_⟩
  · rw [callName_text, callName, Text.lastComponent, Text.lastComponent, Text.sameLetters,
      beq_iff_eq, Text.lower, Text.lower, String.toList_ofList, String.toList_ofList,
      ← (hsegment.afterLast hdot).eq_lowerChars hchild,
      ← (htoken.afterLast hdot).eq_lowerChars htext]
  · rw [mem_argumentNames_text, ← hnames, argumentNames, List.mem_eraseDups]

/-- **A child with the letters of a call is the best one** by its name and the
names of its arguments. -/
theorem matchCall?_of_sameLetters (hn : n.DistinctCalls) (hsigma : n.NoSigma t)
    (hc : c ∈ n.children) (h : Text.sameLetters c.segment t.text = true) :
    n.matchCall? t.text = some c := by
  obtain ⟨harguments, hname, hdeclares⟩ := candidate_of_sameLetters hsigma hc h
  obtain ⟨before, after, hchildren⟩ := List.append_of_mem hc
  rw [DistinctCalls, hchildren, List.pairwise_append, List.pairwise_cons] at hn
  obtain ⟨-, ⟨hafter, -⟩, hbefore⟩ := hn
  have hsame : ∀ d : PathNode, Text.sameLetters (callName d.segment) (callName t.text) = true →
      Text.lower (callName d.segment) = Text.lower (callName c.segment) := fun d hd =>
    (eq_of_beq hd).trans (eq_of_beq hname).symm
  -- of the templates with this name only the one itself declares just these arguments
  have hother : ∀ d : PathNode, (¬ d.Declares (argumentNames c.segment) ∨
      ¬ c.Declares (argumentNames d.segment)) → ¬ d.Declares (argumentNames t.text) := by
    intro d hd hagrees
    rcases hd with hd | hd
    · exact hd fun name => (hagrees name).trans (hdeclares name).symm
    · exact hd fun name => (hdeclares name).trans (hagrees name).symm
  rw [matchCall?, hchildren, List.filter_append,
    List.filter_cons_of_pos (by simp [harguments, hname])]
  refine firstBest_append (fun d hd => ?_) fun d hd => ?_
  · obtain ⟨hmem, hcandidate⟩ := List.mem_filter.1 hd
    obtain ⟨hd, hdname⟩ := Bool.and_eq_true_iff.1 hcandidate
    refine (agreesBetter_of_declares hdeclares (hother d (.inl ?_))).1
    exact hbefore d hmem c List.mem_cons_self hd harguments (beq_iff_eq.2 (hsame d hdname))
  · obtain ⟨hmem, hcandidate⟩ := List.mem_filter.1 hd
    obtain ⟨hd, hdname⟩ := Bool.and_eq_true_iff.1 hcandidate
    refine (agreesBetter_of_declares hdeclares (hother d (.inr ?_))).2
    exact hafter d hmem harguments hd (beq_iff_eq.2 (hsame d hdname).symm)

/-- So a call is matched by its name and the names of its arguments alone. -/
theorem match?_text (hn : n.DistinctCalls) (hsigma : n.NoSigma t) :
    n.match? t.text = n.matchCall? t.text := by
  have hopen : Text.hasChar '(' t.text = true := by
    simp [Text.hasChar, Token.toList_text]
  rw [match?, if_pos hopen]
  cases hchild : n.child? t.text with
  | some c =>
    have hsegment : c.segment = t.text := by simpa using List.find?_some hchild
    rw [Option.some_or, matchCall?_of_sameLetters hn hsigma (List.mem_of_find?_eq_some hchild)
      (by simp [hsegment, Text.sameLetters])]
  | none =>
    rw [Option.none_or]
    cases hletters : n.matchLetters? t.text with
    | some c =>
      rw [Option.some_or, matchCall?_of_sameLetters hn hsigma
        (List.mem_of_find?_eq_some hletters) (by simpa using List.find?_some hletters)]
    | none => rw [Option.none_or]

theorem matchCall?_perm (hname : t.name = t'.name) (hperm : t.arguments.Perm t'.arguments) :
    n.matchCall? t.text = n.matchCall? t'.text := by
  have hwanted : agreesBetter (argumentNames t.text) = agreesBetter (argumentNames t'.text) := by
    refine agreesBetter_congr fun name => ?_
    rw [mem_argumentNames_text, mem_argumentNames_text, (hperm.map _).mem_iff]
  rw [matchCall?, matchCall?, hwanted, callName_text, callName_text, hname]

theorem hasArguments_of_matchCall? {segment : String} (h : n.matchCall? segment = some c) :
    c.hasArguments = true := by
  have hcandidate := List.of_mem_filter (mem_of_firstBest h)
  exact (Bool.and_eq_true_iff.1 hcandidate).1

end PathNode

/-! ## Arguments -/

namespace BoundParameter

variable {name : String} {declared : Option SchemaKind}

/-- A parameter without a value is bound to a placeholder. -/
theorem ofWritten_of_blank {written : Option String}
    (h : ∀ s, written = some s → Text.isBlankText s.toList = true) :
    ofWritten name declared written =
      ⟨name, placeholderText name, (declared.filter (· != .unknown)).getD .string, true⟩ := by
  have hnone : written.filter (fun s => !Text.isBlankText s.toList) = none := by
    cases written with
    | none => rfl
    | some s => simp [h s rfl]
  simp only [ofWritten, hnone]

/-- A parameter with a value is bound to its text. -/
theorem ofWritten_of_text {s : String} (h : Text.isBlankText s.toList = false) :
    ofWritten name declared (some s) =
      ⟨name, Call.unquote s,
        (declared.filter (· != .unknown)).getD
          (if (Text.strip s.toList).head? = some '\'' then .string
            else kindOfValue (Call.unquote s)),
        isPlaceholder (Call.unquote s)⟩ := by
  have hsome : (some s).filter (fun s => !Text.isBlankText s.toList) = some s := by simp [h]
  simp only [ofWritten, hsome]

theorem name_ofWritten (name : String) (declared : Option SchemaKind) (written : Option String) :
    (ofWritten name declared written).name = name := by
  unfold ofWritten
  split <;> rfl

end BoundParameter

namespace Call.Token

variable {t t' : Token} {a : Argument} {name : String}

/-- The arguments of a call as its reader hands them on. -/
def given (t : Token) : Entries String String :=
  t.arguments.map fun a => (a.name, a.written)

/-- **An argument is found under its name**, whatever its letter case and its
place. -/
theorem argument?_of_mem (ha : a ∈ t.arguments) (h : Text.sameLetters a.name name = true) :
    Call.argument? t.given name = some a.written := by
  obtain ⟨before, after, harguments⟩ := List.append_of_mem ha
  have hdistinct := t.distinct
  rw [harguments, List.map_append, List.nodup_append] at hdistinct
  have hbefore : ∀ b ∈ before, Text.sameLetters b.name name = false := by
    intro b hb
    by_contra hsame
    rw [Bool.not_eq_false] at hsame
    refine hdistinct.2.2 _ (List.mem_map_of_mem hb) (Text.lower a.name) (by simp) ?_
    exact (eq_of_beq hsame).trans (eq_of_beq h).symm
  rw [Call.argument?, given, harguments, List.map_append, List.find?_append,
    List.find?_eq_none.2 (by simpa using hbefore)]
  simp [h]

theorem argument?_eq_none (h : ∀ a ∈ t.arguments, Text.sameLetters a.name name = false) :
    Call.argument? t.given name = none := by
  rw [Call.argument?, Option.map_eq_none_iff, List.find?_eq_none]
  intro p hp
  obtain ⟨a, ha, rfl⟩ := List.mem_map.1 hp
  simp [h a ha]

theorem argument?_perm (hperm : t.arguments.Perm t'.arguments) (name : String) :
    Call.argument? t.given name = Call.argument? t'.given name := by
  by_cases h : ∃ a ∈ t.arguments, Text.sameLetters a.name name = true
  · obtain ⟨a, ha, hname⟩ := h
    rw [argument?_of_mem ha hname, argument?_of_mem (hperm.mem_iff.1 ha) hname]
  · have hnone : ∀ a ∈ t.arguments, Text.sameLetters a.name name = false := fun a ha => by
      simpa using fun hname => h ⟨a, ha, hname⟩
    rw [argument?_eq_none hnone, argument?_eq_none fun a ha => hnone a (hperm.mem_iff.2 ha)]

/-- What a parameter of a template is bound to by a call: the text of the
argument of its name, and a placeholder when the call has none. -/
structure Binds (t : Token) (name : String) (p : BoundParameter) : Prop where
  name_eq : p.name = name
  given : ∀ a ∈ t.arguments, Text.sameLetters a.name name = true →
    ∀ text, a.value.text? = some text →
      p.value = text ∧ p.placeholder = BoundParameter.isPlaceholder text
  missing : (∀ a ∈ t.arguments, Text.sameLetters a.name name = true → a.value.text? = none) →
    p.value = BoundParameter.placeholderText name ∧ p.placeholder = true

/-- **A parameter is bound to what the call gives under its name.** -/
theorem binds_ofWritten (t : Token) (name : String) (declared : Option SchemaKind) :
    t.Binds name (BoundParameter.ofWritten name declared (Call.argument? t.given name)) where
  name_eq := BoundParameter.name_ofWritten _ _ _
  given a ha hname text htext := by
    rw [argument?_of_mem ha hname]
    rw [← unquote_written] at htext
    cases hblank : Text.isBlankText a.written.toList with
    | true => simp [hblank] at htext
    | false =>
      rw [hblank] at htext
      obtain rfl := Option.some.inj htext
      simp only [BoundParameter.ofWritten_of_text hblank, and_self]
  missing hnone := by
    rw [BoundParameter.ofWritten_of_blank]
    · simp only [and_self]
    intro s hs
    -- the argument is blank, or there is none
    by_cases h : ∃ a ∈ t.arguments, Text.sameLetters a.name name = true
    · obtain ⟨a, ha, hname⟩ := h
      obtain rfl : a.written = s := Option.some.inj ((argument?_of_mem ha hname).symm.trans hs)
      have htext := hnone a ha hname
      rw [← unquote_written] at htext
      by_contra hblank
      rw [if_neg hblank] at htext
      exact Option.some_ne_none _ htext
    · have hnone : ∀ a ∈ t.arguments, Text.sameLetters a.name name = false := fun a ha => by
        simpa using fun hname => h ⟨a, ha, hname⟩
      rw [argument?_eq_none hnone] at hs
      cases hs

/-- The arguments that a template does not have, in the order of the call. -/
theorem undeclared_given (t : Token) (template : Entries String String) :
    BoundParameter.undeclared template t.given =
      (t.arguments.map (·.name)).filter fun name =>
        !(Entries.keys template).any fun parameter => Text.sameLetters parameter name := by
  have hpairs : (Entries.keys t.given).map (fun a => (Text.lower a, a)) =
      t.arguments.map fun a => (Text.lower a.name, a.name) := by
    simp [given, Entries.keys]
  have hnodup : (Entries.keys (t.arguments.map fun a => (Text.lower a.name, a.name))).Nodup := by
    simpa [Entries.keys, Function.comp_def] using t.distinct
  rw [BoundParameter.undeclared, hpairs, Entries.ofPairs_of_nodup hnodup, Entries.values]
  simp [List.filter_map, Function.comp_def, Text.sameLetters]

end Call.Token

namespace PathNode

variable {n c : PathNode} {t t' : Token}

/-- Whether the template of a node has an argument, whatever the letter case
of its name. -/
def hasParameter (c : PathNode) (name : String) : Bool :=
  (Entries.keys (Call.ofSegment c.segment).arguments).any fun parameter =>
    Text.sameLetters parameter name

/-! ## Segments -/

theorem classify_of_hasArguments (hc : c.hasArguments = true) (segment : String)
    (before : List PathSegment) :
    PathSegment.classify c segment before = some <$> PathSegment.ofCall c segment := by
  have hopen : Text.hasChar '(' c.segment = true := (Bool.and_eq_true_iff.1 hc).1
  have hne : ∀ s, Text.hasChar '(' s = false → c.segment ≠ s := by
    rintro s hs rfl
    simp [hs] at hopen
  have hspecial : PathSegment.specialName? c.segment = none := by
    simp [PathSegment.specialName?, hne "$value" (by decide), hne "$count" (by decide)]
  have hparameter : c.parameterName? = none := by
    simp [parameterName?, isParameter, isPlaceholder, hopen]
  rw [PathSegment.classify, if_neg (hne "$ref" (by decide)), hspecial]
  simp only [hparameter, hc, if_true]

/-- The segment of a call, given what is found under each name. -/
def callOf (c : PathNode) (value? : String → Option String) : PathSegment :=
  let template := Call.ofSegment c.segment
  if c.operationType = .operation ∧ Text.hasChar '.' template.name = false then
    let key := (Entries.keys template.arguments).headD "id"
    let value := Call.unquote ((value? key).getD "")
    ⟨.alternate template.name key (if value.isEmpty then none else some value), none⟩
  else
    let name := Text.lastComponent template.name
    let bound := (Entries.keys template.arguments).map fun name =>
      BoundParameter.ofWritten name ((c.declared? name).map (·.shape.kind)) (value? name)
    ⟨if c.operationType = .action then .action name bound else .function name bound, none⟩

/-- **What a call becomes** depends on what is found under each name only. -/
theorem outcome_ofCall (c : PathNode) (segment : String) :
    (PathSegment.ofCall c segment).outcome =
      .ok (c.callOf (Call.argument? (Call.ofSegment segment).arguments)) := by
  unfold PathSegment.ofCall callOf
  simp only
  split
  · rfl
  · rw [Noted.outcome_bind, Noted.outcome_forIn fun _ _ => rfl]
    rfl

/-- **Every argument of a call is bound or noted**, unless the call stands for
an alternate key. -/
theorem run_ofCall (c : PathNode) (t : Token) : ∃ s notices,
    (PathSegment.ofCall c t.text).run = .ok (s, notices) ∧
      ∀ name bound, s.role = .action name bound ∨ s.role = .function name bound →
        List.Forall₂ t.Binds (Entries.keys (Call.ofSegment c.segment).arguments) bound ∧
          ∀ a ∈ t.arguments, notices.count (.undeclaredArgument a.name c.segment) =
            if c.hasParameter a.name then 0 else 1 := by
  have hgiven : (Call.ofSegment t.text).arguments = t.given := by
    rw [Token.ofSegment_text]
    rfl
  unfold PathSegment.ofCall
  simp only [hgiven]
  split
  · refine ⟨_, [], rfl, fun name bound hrole => ?_⟩
    rcases hrole with hrole | hrole <;> cases hrole
  · refine ⟨_, _, Noted.run_bind (Noted.run_forIn_note _ _) rfl, fun name bound hrole => ?_⟩
    have hbound : bound = BoundParameter.bind c (Call.ofSegment c.segment).arguments t.given := by
      dsimp only at hrole
      split at hrole
      · rcases hrole with hrole | hrole
        · exact (SegmentRole.action.inj hrole).2.symm
        · cases hrole
      · rcases hrole with hrole | hrole
        · cases hrole
        · exact (SegmentRole.function.inj hrole).2.symm
    refine ⟨?_, fun a ha => ?_⟩
    · rw [hbound, BoundParameter.bind, List.forall₂_map_right_iff]
      exact List.forall₂_same.2 fun name _ => t.binds_ofWritten name _
    -- the names differ, so an argument that is undeclared is noted once
    · have hnames : (t.arguments.map (·.name)).Nodup := by
        refine List.Nodup.of_map Text.lower ?_
        simpa [Function.comp_def] using t.distinct
      have hinj : Function.Injective fun a => Notice.undeclaredArgument a c.segment :=
        fun a b hab => (Notice.undeclaredArgument.inj hab).1
      rw [List.append_nil, Token.undeclared_given, List.count_map_of_injective _ _ hinj]
      cases hdeclared : c.hasParameter a.name with
      | true =>
        rw [if_pos rfl, List.count_eq_zero]
        intro hmem
        have hfilter := List.of_mem_filter hmem
        rw [hasParameter] at hdeclared
        simp [hdeclared] at hfilter
      | false =>
        rw [hasParameter] at hdeclared
        rw [if_neg (by simp), List.count_filter (by rw [hdeclared]; rfl)]
        exact List.count_eq_one_of_mem hnames (List.mem_map_of_mem ha)

/-- **Calls resolve in any order of their arguments.** The child that is
matched is the same, and so is the segment. In the segment of an action or a
function, the parameters of the template stand in its order, each bound to what
the call gives under its name; and the arguments that the template does not
have are reported, each once. -/
theorem call_in_any_order (hn : n.DistinctCalls) (hsigma : n.NoSigma t) (hname : t.name = t'.name)
    (hperm : t.arguments.Perm t'.arguments) :
    n.match? t.text = n.match? t'.text ∧
      ∀ c, n.match? t.text = some c → ∀ before, ∃ s notices,
        (PathSegment.classify c t.text before).run = .ok (some s, notices) ∧
          (PathSegment.classify c t'.text before).outcome = .ok (some s) ∧
          ∀ name bound, s.role = .action name bound ∨ s.role = .function name bound →
            List.Forall₂ t.Binds (Entries.keys (Call.ofSegment c.segment).arguments) bound ∧
              ∀ a ∈ t.arguments, notices.count (.undeclaredArgument a.name c.segment) =
                if c.hasParameter a.name then 0 else 1 := by
  have hsigma' : n.NoSigma t' := ⟨hname ▸ hsigma.1, hsigma.2⟩
  refine ⟨?_, fun c hc before => ?_⟩
  · rw [match?_text hn hsigma, match?_text hn hsigma', matchCall?_perm hname hperm]
  · rw [match?_text hn hsigma] at hc
    have hcall := hasArguments_of_matchCall? hc
    obtain ⟨s, notices, hrun, hspec⟩ := run_ofCall c t
    have hvalues : Call.argument? (Call.ofSegment t'.text).arguments =
        Call.argument? (Call.ofSegment t.text).arguments := by
      rw [Token.ofSegment_text, Token.ofSegment_text]
      exact funext fun name => (Token.argument?_perm hperm name).symm
    have hcongr : (PathSegment.ofCall c t'.text).outcome =
        (PathSegment.ofCall c t.text).outcome := by
      rw [outcome_ofCall, outcome_ofCall, hvalues]
    refine ⟨s, notices, ?_, ?_, hspec⟩
    · rw [classify_of_hasArguments hcall]
      exact Noted.run_map hrun
    · rw [classify_of_hasArguments hcall, Noted.outcome_map, hcongr, Noted.outcome, hrun]
      rfl

/-- A template with two arguments, written as a call with placeholders. -/
def rangeTemplate : Token where
  name := "ns.range"
  arguments := [
    ⟨"from", .bare "\x7bfrom\x7d" (Text.forall_of_all (by decide)), by decide,
      Text.forall_of_all (by decide)⟩,
    ⟨"to", .bare "\x7bto\x7d" (Text.forall_of_all (by decide)), by decide,
      Text.forall_of_all (by decide)⟩]
  opens := by decide
  distinct := by decide

/-- The overload with the first argument alone. -/
def openRangeTemplate : Token where
  name := "ns.range"
  arguments := [
    ⟨"from", .bare "\x7bfrom\x7d" (Text.forall_of_all (by decide)), by decide,
      Text.forall_of_all (by decide)⟩]
  opens := by decide
  distinct := by decide

def rangeNode : PathNode where
  segment := ""
  path := "/"
  children := [fresh "/" "ns.range(from=\x7bfrom\x7d)",
    fresh "/" "ns.range(from=\x7bfrom\x7d,to=\x7bto\x7d)"]

/-- A call of it with a quoted text, a blank and an argument too many. -/
def rangeCall : Token where
  name := "NS.Range"
  arguments := [
    ⟨"To", .quoted "it's", by decide, Text.forall_of_all (by decide)⟩,
    ⟨"step", .bare "2" (Text.forall_of_all (by decide)), by decide, Text.forall_of_all (by decide)⟩,
    ⟨"from", .bare " " (Text.forall_of_all (by decide)), by decide, Text.forall_of_all (by decide)⟩]
  opens := by decide
  distinct := by decide

/-- The same call with its arguments the other way round. -/
def reversedCall : Token where
  name := "NS.Range"
  arguments := rangeCall.arguments.reverse
  opens := by decide
  distinct := by decide

theorem text_rangeTemplate : rangeTemplate.text = "ns.range(from=\x7bfrom\x7d,to=\x7bto\x7d)" := by
  decide

theorem text_openRangeTemplate : openRangeTemplate.text = "ns.range(from=\x7bfrom\x7d)" := by
  decide

theorem distinctCalls_rangeNode : rangeNode.DistinctCalls := by
  refine List.pairwise_pair.2 fun _ _ _ hdeclares => ?_
  have hto := hdeclares "to"
  rw [fresh, fresh, ← text_rangeTemplate, ← text_openRangeTemplate, mem_argumentNames_text,
    mem_argumentNames_text] at hto
  exact absurd hto (by decide)

theorem noSigma_rangeNode : rangeNode.NoSigma rangeCall := by
  refine ⟨by decide, fun c hc _ => ?_⟩
  rcases List.mem_pair.1 hc with rfl | rfl
  · rw [fresh, ← text_openRangeTemplate, callName_text]
    decide
  · rw [fresh, ← text_rangeTemplate, callName_text]
    decide

theorem call_in_any_order_range :
    rangeNode.DistinctCalls ∧ rangeNode.NoSigma rangeCall ∧
      rangeCall.arguments.Perm reversedCall.arguments ∧
      rangeNode.match? "NS.Range(To='it''s',step=2,from= )" =
        rangeNode.match? "NS.Range(from= ,step=2,To='it''s')" := by
  have hperm : rangeCall.arguments.Perm reversedCall.arguments :=
    (List.reverse_perm rangeCall.arguments).symm
  have htext : rangeCall.text = "NS.Range(To='it''s',step=2,from= )" := by decide
  have htext' : reversedCall.text = "NS.Range(from= ,step=2,To='it''s')" := by decide
  have hname : rangeCall.name = reversedCall.name := rfl
  obtain ⟨hmatch, -⟩ := call_in_any_order distinctCalls_rangeNode noSigma_rangeNode hname hperm
  rw [htext, htext'] at hmatch
  exact ⟨distinctCalls_rangeNode, noSigma_rangeNode, hperm, hmatch⟩

end PathNode

end ApiSnippets
