import Mathlib.Data.List.Find
import Mathlib.Data.List.Forall2
import ApiSnippets.Proofs.Request.Folded
import ApiSnippets.Proofs.Resolution.Calls
import ApiSnippets.Proofs.Resolution.OwnPath
/-!
# Walks in other letters

Two paths of ASCII whose segments have the same letters are walked alike,
where letter case tells neither siblings nor schemas apart
(`walk_ignores_case`). Every comparison on the way is made in lower case, and a
look-up by the exact spelling finds nothing else. Two things are left that
letter case can change: an argument whose name a call repeats in other letters
is another argument for the reader of calls, and a text that stands in place of
the schemas is searched as it is written.
-/

namespace ApiSnippets

open Text (folded lower sameLetters)

/-! ## Siblings and schemas -/

namespace PathNode

variable {n c : PathNode} {t t' : String}

/-- That letter case tells no two siblings apart, from a node downwards. -/
def CaseDistinct (n : PathNode) : Prop :=
  ∀ m ∈ n.walk, ∀ c ∈ m.children, ∀ d ∈ m.children,
    sameLetters c.segment d.segment = true → c.segment = d.segment

theorem CaseDistinct.child (h : n.CaseDistinct) (hc : c ∈ n.children) : c.CaseDistinct :=
  fun m hm => h m (mem_walk_of_mem_children hc hm)

/-- A child with the very segment is the child with its letters. -/
theorem child?_or_matchLetters? (h : n.CaseDistinct) (t : String) :
    (n.child? t).or (n.matchLetters? t) = n.matchLetters? t := by
  cases hchild : n.child? t with
  | none => rfl
  | some c =>
    have hsegment : c.segment = t := by simpa using List.find?_some hchild
    have hmem := List.mem_of_find?_eq_some hchild
    rw [Option.some_or, ← hchild, child?, matchLetters?]
    refine List.find?_congr fun d hd => ?_
    rw [← hsegment, Bool.eq_iff_iff, beq_iff_eq]
    constructor
    · intro heq
      rw [heq]
      exact beq_self_eq_true _
    · exact h n (mem_walk_self n) d hd c hmem

theorem callName_folded (t : String) : callName (folded t) = folded (callName t) := by
  rw [callName, callName, Call.ofSegment_folded, Text.lastComponent_folded]

theorem mem_argumentNames_folded {name : String} :
    name ∈ argumentNames (folded t) ↔ name ∈ argumentNames t := by
  have hlower : ∀ p : List Char × List Char,
      lower (Call.texts (Call.foldBoth p)).1 = lower (Call.texts p).1 := by
    intro p
    rw [Call.texts, Call.foldBoth, ← Text.folded_ofList, Text.lower_folded]
    rfl
  rw [argumentNames, argumentNames, Call.ofSegment_folded, Call.ofSegment_eq, List.mem_eraseDups,
    List.mem_eraseDups]
  simp only [List.mem_map, Entries.mem_keys_ofPairs, exists_exists_and_eq_and, hlower]

theorem matchCall?_folded (n : PathNode) (t : String) :
    n.matchCall? (folded t) = n.matchCall? t := by
  rw [matchCall?, matchCall?, callName_folded,
    agreesBetter_congr fun name => mem_argumentNames_folded (t := t)]
  simp only [sameLetters, Text.lower_folded]

/-- **A segment matches the child that it matches in other letters.** -/
theorem match?_folded (h : n.CaseDistinct) (t : String) : n.match? (folded t) = n.match? t := by
  have hopen : Text.hasChar '(' (folded t) = Text.hasChar '(' t :=
    Text.hasChar_folded (by decide)
  rw [match?, match?, ← Option.or_assoc, ← Option.or_assoc, child?_or_matchLetters? h,
    child?_or_matchLetters? h, hopen, matchCall?_folded]
  simp only [matchLetters?, matchShort?, sameLetters, Text.lower_folded]

theorem mem_children_of_match? (h : n.match? t = some c) : c ∈ n.children := by
  rcases Option.or_eq_some_iff.1 h with hchild | ⟨-, hrest⟩
  · exact List.mem_of_find?_eq_some hchild
  rcases Option.or_eq_some_iff.1 hrest with hletters | ⟨-, hname⟩
  · exact List.mem_of_find?_eq_some hletters
  split at hname
  · exact (List.mem_filter.1 (mem_of_firstBest hname)).1
  · exact List.mem_of_find?_eq_some hname

end PathNode

namespace Catalog

variable {c : Catalog}

/-- That letter case tells no two schemas apart, and nothing is searched for
the spelling of a name. -/
structure CaseDistinct (c : Catalog) : Prop where
  ids : ∀ a ∈ c.ids, ∀ b ∈ c.ids, sameLetters a b = true → a = b
  schemas : ∀ s, c.standIn ≠ some (.text s)

theorem contains_eq (h : c.CaseDistinct) (name : String) :
    c.contains name = c.ids.contains name := by
  unfold contains
  split
  · next s hs => exact absurd hs (h.schemas s)
  · rfl

/-- The schema of a name is the last one with its letters, if there is one. -/
theorem find?_eq_letters (h : c.CaseDistinct) (name : String) : c.find? name none =
    match c.ids.reverse.find? fun id => sameLetters id name with
    | some id => .ok (some id)
    | none => if c.hasOctetNames then .error (.defect .type) else .ok (c.findShort? name none) := by
  unfold find?
  cases hcontains : c.contains name with
  | false => rfl
  | true =>
    have hname : name ∈ c.ids := by simpa [contains_eq h] using hcontains
    rw [if_pos rfl]
    cases hfind : c.ids.reverse.find? fun id => sameLetters id name with
    | none =>
      have hnone := List.find?_eq_none.1 hfind name (List.mem_reverse.2 hname)
      exact absurd (beq_self_eq_true _) hnone
    | some id =>
      have hid := List.mem_reverse.1 (List.mem_of_find?_eq_some hfind)
      have hletters : sameLetters id name = true := by simpa using List.find?_some hfind
      rw [h.ids id hid name hname hletters]

theorem find?_folded (h : c.CaseDistinct) (name : String) :
    c.find? (folded name) none = c.find? name none := by
  rw [find?_eq_letters h, find?_eq_letters h]
  simp only [findShort?, candidates, sameLetters, Text.lower_folded, Text.lastComponent_folded,
    Option.filter_none]

end Catalog

theorem Index.typeCast?_folded {ix : Index} (h : ix.catalog.CaseDistinct) (t : String) :
    ix.typeCast? (folded t) = ix.typeCast? t := by
  have hhash : String.ofList ((folded t).toList.dropWhile (· == '#')) =
      folded (String.ofList (t.toList.dropWhile (· == '#'))) := by
    rw [Text.toList_folded, Text.dropWhile_fold (Text.beq_toLower (by decide)), Text.folded_ofList]
  have hdescribe : ix.describeType (folded t) none = ix.describeType t none := by
    rw [describeType, describeType, Catalog.describe, Catalog.describe, hhash,
      Catalog.find?_folded h]
  rw [typeCast?, typeCast?, Text.hasChar_folded (by decide), Text.hasChar_folded (by decide),
    hdescribe]

/-! ## Values in other letters -/

namespace BoundParameter

/-- The parameter with its value in lower case. -/
def lowered (p : BoundParameter) : BoundParameter :=
  { p with value := lower p.value }

theorem isPlaceholder_folded (value : String) :
    isPlaceholder (folded value) = isPlaceholder value := by
  rw [isPlaceholder, isPlaceholder, Text.hasStart_folded (by decide),
    Text.hasEnd_folded (by decide)]

theorem kindOfValue_folded (value : String) : kindOfValue (folded value) = kindOfValue value := by
  have hdigits : Number.isDashedDigits (folded value) = Number.isDashedDigits value := by
    rw [Number.isDashedDigits, Number.isDashedDigits, Text.toList_folded,
      Text.dropWhile_fold (Text.beq_toLower (by decide)), Text.all_fold Text.isDigit_toLower]
    cases value.toList.dropWhile (· == '-') <;> rfl
  rw [kindOfValue, kindOfValue, Text.lower_folded, hdigits]

/-- **A folded value is bound as the value is**, letter case aside. -/
theorem lowered_ofWritten_folded (name : String) (declared : Option SchemaKind)
    (written : Option String) :
    (ofWritten name declared (written.map folded)).lowered =
      (ofWritten name declared written).lowered := by
  cases written with
  | none => rfl
  | some w =>
    have hblank : Text.isBlankText (folded w).toList = Text.isBlankText w.toList := by
      rw [Text.toList_folded, Text.isBlankText_fold]
    have hquoted : (Text.strip (folded w).toList).head? = some '\'' ↔
        (Text.strip w.toList).head? = some '\'' := by
      rw [Text.toList_folded, Text.strip_fold]
      cases Text.strip w.toList with
      | nil => rfl
      | cons c more => simp [Call.toLower_eq_quote]
    rw [Option.map_some]
    -- letters do not make a text blank, so both sides are bound in the same way
    cases hw : Text.isBlankText w.toList with
    | true =>
      have hwritten : ∀ s, some w = some s → Text.isBlankText s.toList = true := by
        rintro s ⟨⟩
        exact hw
      have hfolded : ∀ s, some (folded w) = some s → Text.isBlankText s.toList = true := by
        rintro s ⟨⟩
        exact hblank.trans hw
      rw [ofWritten_of_blank hwritten, ofWritten_of_blank hfolded]
    | false =>
      rw [ofWritten_of_text hw, ofWritten_of_text (hblank.trans hw)]
      simp only [lowered, hquoted, Call.unquote_folded, Text.lower_folded, kindOfValue_folded,
        isPlaceholder_folded]

end BoundParameter

/-! ## Segments without their values -/

namespace SegmentRole

/-- The role with the values of its arguments replaced. -/
def mapValues (f : BoundParameter → BoundParameter) (g : Option String → Option String) :
    SegmentRole → SegmentRole
  | .alternate collection key value => .alternate collection key (g value)
  | .action name args => .action name (args.map f)
  | .function name args => .function name (args.map f)
  | role => role

end SegmentRole

namespace PathSegment

variable {f : BoundParameter → BoundParameter} {g : Option String → Option String}
variable {segments segments' : List PathSegment} {c : PathNode} {t t' : String}

/-- The segment with the values of its arguments replaced. -/
def mapValues (f : BoundParameter → BoundParameter) (g : Option String → Option String)
    (s : PathSegment) : PathSegment :=
  { s with role := s.role.mapValues f g }

/-- The segment without what the request gives for its arguments. -/
def unvalued : PathSegment → PathSegment :=
  mapValues (fun p => ⟨p.name, "", .string, false⟩) fun _ => none

/-- The segment with the values of its arguments in lower case. -/
def lowered : PathSegment → PathSegment :=
  mapValues BoundParameter.lowered (Option.map lower)

theorem castLast_map (type : String) (segments : List PathSegment) :
    castLast type (segments.map (mapValues f g)) =
      (castLast type segments).map (mapValues f g) := by
  rw [castLast, castLast, List.getLast?_map]
  cases segments.getLast? with
  | none => rfl
  | some last => simp [mapValues]

/-- A cast is noted on the last segment, whatever the values before it. -/
theorem castLast_congr (h : segments.map (mapValues f g) = segments'.map (mapValues f g))
    (type : String) :
    (castLast type segments).map (mapValues f g) =
      (castLast type segments').map (mapValues f g) := by
  rw [← castLast_map, h, castLast_map]

/-- A placeholder is a key or not, whatever the values before it. -/
theorem ofPlaceholder_congr (h : segments.map (mapValues f g) = segments'.map (mapValues f g))
    (name : String) : ofPlaceholder name segments = ofPlaceholder name segments' := by
  have hmap : ∀ before : List PathSegment,
      ofPlaceholder name (before.map (mapValues f g)) = ofPlaceholder name before := by
    intro before
    rw [ofPlaceholder, ofPlaceholder, List.getLast?_map]
    cases before.getLast? with
    | none => rfl
    | some last =>
      obtain ⟨role, cast⟩ := last
      cases role <;> rfl
  rw [← hmap segments, h, hmap]

/-- A call without its values depends on the template alone. -/
theorem unvalued_callOf (c : PathNode) (value? value?' : String → Option String) :
    unvalued (c.callOf value?) = unvalued (c.callOf value?') := by
  have hbound : ∀ values : String → Option String,
      ((Entries.keys (Call.ofSegment c.segment).arguments).map fun name =>
        BoundParameter.ofWritten name ((c.declared? name).map (·.shape.kind))
          (values name)).map (fun p => (⟨p.name, "", .string, false⟩ : BoundParameter)) =
      (Entries.keys (Call.ofSegment c.segment).arguments).map fun name =>
        ⟨name, "", .string, false⟩ := by
    intro values
    simp [Function.comp_def, BoundParameter.name_ofWritten]
  rw [PathNode.callOf, PathNode.callOf]
  dsimp only
  split
  · simp only [unvalued, mapValues, SegmentRole.mapValues]
  · split <;> simp only [unvalued, mapValues, SegmentRole.mapValues, hbound]

/-- A call with folded values has the same values in lower case. -/
theorem lowered_callOf_folded (c : PathNode) (value? : String → Option String) :
    lowered (c.callOf fun name => (value? name).map folded) = lowered (c.callOf value?) := by
  have hbound : ∀ name, BoundParameter.lowered (BoundParameter.ofWritten name
      ((c.declared? name).map (·.shape.kind)) ((value? name).map folded)) =
      BoundParameter.lowered (BoundParameter.ofWritten name
        ((c.declared? name).map (·.shape.kind)) (value? name)) := fun name =>
    BoundParameter.lowered_ofWritten_folded name _ _
  have hkey : ∀ key, Call.unquote (((value? key).map folded).getD "") =
      folded (Call.unquote ((value? key).getD "")) := by
    intro key
    rw [← Call.unquote_folded]
    cases value? key <;> rfl
  have hvalue : ∀ s : String,
      (if (folded s).isEmpty then none else some (folded s)).map lower =
        (if s.isEmpty then none else some s).map lower := by
    intro s
    have hempty : folded s = "" ↔ s = "" := by
      rw [← String.toList_eq_nil_iff, ← String.toList_eq_nil_iff, Text.toList_folded, Text.fold,
        List.map_eq_nil_iff]
    simp only [String.isEmpty_iff, hempty]
    split
    · rfl
    · rw [Option.map_some, Option.map_some, Text.lower_folded]
  rw [PathNode.callOf, PathNode.callOf]
  dsimp only
  split
  · simp only [lowered, mapValues, SegmentRole.mapValues, hkey, hvalue]
  · split <;> simp only [lowered, mapValues, SegmentRole.mapValues, List.map_map,
      Function.comp_def, hbound]

end PathSegment

/-! ## What is seen of an outcome -/

/-- The fault without the path of the request, and with the segment it names in
lower case. -/
def Fault.lowered : Fault → Fault
  | path (.noMatch token above) _ segment =>
    path (.noMatch (lower token) above) "" (segment.map lower)
  | e => e

namespace Outcome

variable {α β γ δ : Type} {x y : Outcome α} {ψ : β → δ} {next next' : α → Outcome β}

/-- What is seen of a value, or of the fault in its place. -/
def seen (φ : α → γ) : Outcome α → Outcome γ
  | .ok a => .ok (φ a)
  | .error e => .error e.lowered

/-- Steps that look alike, one after the other, look alike. -/
theorem seen_bind (φ : α → γ) (h : x.seen φ = y.seen φ)
    (hnext : ∀ a b, x = .ok a → y = .ok b → φ a = φ b →
      (next a).seen ψ = (next' b).seen ψ) :
    (x >>= next).seen ψ = (y >>= next').seen ψ := by
  cases x with
  | error e =>
    cases y with
    | error e' => exact congrArg Except.error (Except.error.inj h)
    | ok b => cases h
  | ok a =>
    cases y with
    | error e' => cases h
    | ok b => exact hnext a b rfl rfl (Except.ok.inj h)

end Outcome

namespace Resolution

variable {f : BoundParameter → BoundParameter} {g : Option String → Option String}
variable {ix : Index} {path path' t t' : String} {p p' : Place} {child : PathNode}

/-- The place with the values of its segments replaced. -/
def Place.mapValues (f : BoundParameter → BoundParameter) (g : Option String → Option String)
    (p : Place) : Place :=
  ⟨p.node, p.segments.map (PathSegment.mapValues f g)⟩

/-- Two segments that differ in letter case, and whose calls look alike. -/
structure LooksAlike (f : BoundParameter → BoundParameter) (g : Option String → Option String)
    (t t' : String) : Prop where
  folded : folded t = folded t'
  calls : ∀ c : PathNode,
    (c.callOf (Call.argument? (Call.ofSegment t).arguments)).mapValues f g =
      (c.callOf (Call.argument? (Call.ofSegment t').arguments)).mapValues f g

theorem classify_seen (h : LooksAlike f g t t') (hp : p.mapValues f g = p'.mapValues f g)
    (child : PathNode) :
    (Noted.outcome (PathSegment.classify child t p.segments)).seen
        (Option.map (PathSegment.mapValues f g)) =
      (Noted.outcome (PathSegment.classify child t' p'.segments)).seen
        (Option.map (PathSegment.mapValues f g)) := by
  have hsegments : p.segments.map (PathSegment.mapValues f g) =
      p'.segments.map (PathSegment.mapValues f g) := congrArg Place.segments hp
  unfold PathSegment.classify
  split
  · rfl
  split
  · rfl
  split
  · rw [PathSegment.ofPlaceholder_congr hsegments]
  split
  · rw [Noted.outcome_map, Noted.outcome_map, PathNode.outcome_ofCall, PathNode.outcome_ofCall]
    exact congrArg (fun s => Except.ok (some s)) (h.calls child)
  split
  · rfl
  split <;> rfl

theorem enter_seen (h : LooksAlike f g t t') (hp : p.mapValues f g = p'.mapValues f g)
    (child : PathNode) :
    (Noted.outcome (p.enter child t)).seen (Place.mapValues f g) =
      (Noted.outcome (p'.enter child t')).seen (Place.mapValues f g) := by
  have hsegments : p.segments.map (PathSegment.mapValues f g) =
      p'.segments.map (PathSegment.mapValues f g) := congrArg Place.segments hp
  have hempty : p.segments.isEmpty = p'.segments.isEmpty := by
    simpa using congrArg List.isEmpty hsegments
  unfold Place.enter
  rw [Noted.outcome_bind, Noted.outcome_bind]
  refine Outcome.seen_bind _ (classify_seen h hp child) ?_
  rintro s s' - - hs
  cases s with
  | none =>
    obtain rfl : s' = none := Option.map_eq_none_iff.1 hs.symm
    dsimp only
    rw [hempty]
    split
    · rfl
    · exact congrArg (fun segments => Except.ok (Place.mk child segments))
        (PathSegment.castLast_congr hsegments _)
  | some s =>
    obtain ⟨s', rfl, hsame⟩ := Option.map_eq_some_iff.1 hs.symm
    refine congrArg Except.ok ?_
    simp [Place.mapValues, hsegments, hsame]

/-- A step leads to a node or to a child of it. -/
theorem node_of_step {q : Place} (h : Noted.outcome (p.step ix path t) = .ok q) :
    q.node = p.node ∨ q.node ∈ p.node.children := by
  have henter : ∀ child, Noted.outcome (p.enter child t) = .ok q → q.node = child := by
    intro child hq
    obtain ⟨place, hplace, hnode, -⟩ := exists_enter p child t
    rw [Except.ok.inj (hq.symm.trans hplace), hnode]
  unfold Place.step at h
  split at h
  · next child hchild =>
    rw [henter child h]
    exact .inr (PathNode.mem_children_of_match? hchild)
  · obtain ⟨type, -, h⟩ := Noted.outcome_bind_eq_ok.1 h
    split at h
    · rw [← Noted.outcome_pure_eq_ok.1 h]
      exact .inl rfl
    · split at h
      · next child hchild =>
        rw [henter child h]
        exact .inr (List.mem_of_find?_eq_some hchild)
      · cases h

/-- **A step looks alike** for two segments that do. -/
theorem step_seen (hsegments : p.node.CaseDistinct) (hcatalog : ix.catalog.CaseDistinct)
    (h : LooksAlike f g t t') (hp : p.mapValues f g = p'.mapValues f g) :
    (Noted.outcome (p.step ix path t)).seen (Place.mapValues f g) =
      (Noted.outcome (p'.step ix path' t')).seen (Place.mapValues f g) := by
  have hnode : p.node = p'.node := by
    simpa [Place.mapValues] using congrArg Place.node hp
  have hbefore : p.segments.map (PathSegment.mapValues f g) =
      p'.segments.map (PathSegment.mapValues f g) := congrArg Place.segments hp
  have hempty : p.segments.isEmpty = p'.segments.isEmpty := by
    simpa using congrArg List.isEmpty hbefore
  have hmatch : p.node.match? t = p'.node.match? t' := by
    rw [← PathNode.match?_folded hsegments, h.folded, PathNode.match?_folded hsegments, hnode]
  have hcast : ix.typeCast? t = ix.typeCast? t' := by
    rw [← Index.typeCast?_folded hcatalog, h.folded, Index.typeCast?_folded hcatalog]
  unfold Place.step
  rw [hmatch]
  split
  · exact enter_seen h hp _
  rw [Noted.outcome_bind, Noted.outcome_bind, hcast, hempty, hnode]
  refine Outcome.seen_bind id rfl ?_
  rintro type type' - - (rfl : type = type')
  split
  · exact congrArg (fun segments => Except.ok (Place.mk p'.node segments))
      (PathSegment.castLast_congr hbefore _)
  split
  · exact enter_seen h hp _
  -- the refusal names the segment, which is the same in lower case
  · have hlower : lower t = lower t' := Text.lower_eq_of_folded h.folded
    show Except.error (Fault.lowered _) = Except.error (Fault.lowered _)
    simp only [Fault.lowered, Option.map_some, hlower]

/-- **Walks look alike.** -/
theorem walk_seen {ts ts' : List String} (hsegments : p.node.CaseDistinct)
    (hcatalog : ix.catalog.CaseDistinct) (h : List.Forall₂ (LooksAlike f g) ts ts')
    (hp : p.mapValues f g = p'.mapValues f g) :
    (Noted.outcome (walk ix path p ts)).seen (Place.mapValues f g) =
      (Noted.outcome (walk ix path' p' ts')).seen (Place.mapValues f g) := by
  induction h generalizing p p' with
  | nil => exact congrArg Except.ok hp
  | @cons t t' ts ts' ht _ ih =>
    rw [walk, walk, Noted.outcome_bind, Noted.outcome_bind]
    refine Outcome.seen_bind _ (step_seen hsegments hcatalog ht hp) fun q q' hq _ hsame => ?_
    refine ih ?_ hsame
    rcases node_of_step hq with hnode | hchild
    · rw [hnode]
      exact hsegments
    · exact hsegments.child hchild

/-! ## Paths of ASCII -/

/-- A text of ASCII. -/
def IsAscii (s : String) : Prop :=
  ∀ c ∈ s.toList, c.toNat < 128

theorem isAscii_of_mem_segments (h : IsAscii path) (ht : t ∈ Path.segments path) : IsAscii t := by
  obtain ⟨cs, hcs, rfl⟩ := List.mem_map.1 ht
  intro c hc
  rw [String.toList_ofList] at hc
  exact h c (Text.mem_of_mem_cutOutside (List.mem_filter.1 hcs).1 hc)

/-- Calls look alike without their values. -/
theorem looksAlike_unvalued (h : folded t = folded t') :
    LooksAlike (fun p => ⟨p.name, "", .string, false⟩) (fun _ => none) t t' :=
  ⟨h, fun c => PathSegment.unvalued_callOf c _ _⟩

/-- Calls that repeat no name in other letters look alike with their values in
lower case. -/
theorem looksAlike_lowered (h : folded t = folded t')
    (ht : Call.KeepsLetters (Call.ofSegment t).arguments)
    (ht' : Call.KeepsLetters (Call.ofSegment t').arguments) :
    LooksAlike BoundParameter.lowered (Option.map lower) t t' := by
  refine ⟨h, fun c => ?_⟩
  have hvalues : (fun name => (Call.argument? (Call.ofSegment t).arguments name).map folded) =
      fun name => (Call.argument? (Call.ofSegment t').arguments name).map folded := by
    funext name
    rw [← Call.argument?_folded ht, ← Call.argument?_folded ht', h]
  have hlowered := PathSegment.lowered_callOf_folded c
    (Call.argument? (Call.ofSegment t).arguments)
  rw [hvalues, PathSegment.lowered_callOf_folded] at hlowered
  exact hlowered.symm

/-- The place without the values of its arguments. -/
def Place.unvalued (p : Place) : Place :=
  ⟨p.node, p.segments.map PathSegment.unvalued⟩

/-- The place with the values of its arguments in lower case. -/
def Place.lowered (p : Place) : Place :=
  ⟨p.node, p.segments.map PathSegment.lowered⟩

/-- **Walks ignore letter case.** Where letter case tells no two siblings and
no two schemas apart, and no text stands in place of the schemas, the walks
along two paths of ASCII whose segments have the same letters reach the same
node after as many segments, with the same roles, names and casts, or fail
alike at the same segment. Where no call repeats the name of an argument in
other letters, the arguments have the same values, letter case aside. -/
theorem walk_ignores_case (hsegments : ix.root.CaseDistinct) (hcatalog : ix.catalog.CaseDistinct)
    (hascii : IsAscii path) (hascii' : IsAscii path')
    (hletters : List.Forall₂ (fun t t' => sameLetters t t' = true) (Path.segments path)
      (Path.segments path')) :
    (∀ i, (Noted.outcome (walk ix path ⟨ix.root, []⟩ ((Path.segments path).take i))).seen
        Place.unvalued =
      (Noted.outcome (walk ix path' ⟨ix.root, []⟩ ((Path.segments path').take i))).seen
        Place.unvalued) ∧
    ((∀ t ∈ Path.segments path ++ Path.segments path',
        Call.KeepsLetters (Call.ofSegment t).arguments) →
      ∀ i, (Noted.outcome (walk ix path ⟨ix.root, []⟩ ((Path.segments path).take i))).seen
          Place.lowered =
        (Noted.outcome (walk ix path' ⟨ix.root, []⟩ ((Path.segments path').take i))).seen
          Place.lowered) := by
  have hfolded : List.Forall₂ (fun t t' => t ∈ Path.segments path ∧ t' ∈ Path.segments path' ∧
      folded t = folded t') (Path.segments path) (Path.segments path') := by
    obtain ⟨hlength, hzip⟩ := List.forall₂_iff_zip.1 hletters
    refine List.forall₂_iff_zip.2 ⟨hlength, fun {t t'} hmem => ?_⟩
    obtain ⟨ht, ht'⟩ := List.of_mem_zip hmem
    exact ⟨ht, ht', Text.folded_eq_of_sameLetters (isAscii_of_mem_segments hascii ht)
      (isAscii_of_mem_segments hascii' ht') (hzip hmem)⟩
  refine ⟨fun i => ?_, fun hkeeps i => ?_⟩
  · exact walk_seen hsegments hcatalog
      (List.forall₂_take i (hfolded.imp fun t t' h => looksAlike_unvalued h.2.2)) rfl
  · refine walk_seen hsegments hcatalog
      (List.forall₂_take i (hfolded.imp fun t t' h => looksAlike_lowered h.2.2 ?_ ?_)) rfl
    · exact hkeeps t (List.mem_append_left _ h.1)
    · exact hkeeps t' (List.mem_append_right _ h.2.1)

/-- An API with a function and a property. -/
def greetIndex : Index where
  catalog := { document := .map [], schemas := [("ns.person", .map [])] }
  root :=
    { segment := "", path := "/", children := [
      { segment := "ns.greet(name=\x7bname\x7d)", path := "/ns.greet(name=\x7bname\x7d)" },
      { segment := "me", path := "/me" }] }

theorem walk_ignores_case_greet :
    greetIndex.root.CaseDistinct ∧ greetIndex.catalog.CaseDistinct ∧
      IsAscii "/NS.Greet(Name='ANN')" ∧ IsAscii "/ns.greet(name='Ann')" ∧
      (Noted.outcome (walk greetIndex "/NS.Greet(Name='ANN')" ⟨greetIndex.root, []⟩
          ["NS.Greet(Name='ANN')"])).seen Place.lowered =
        (Noted.outcome (walk greetIndex "/ns.greet(name='Ann')" ⟨greetIndex.root, []⟩
          ["ns.greet(name='Ann')"])).seen Place.lowered := by
  have hsegments : greetIndex.root.CaseDistinct := by
    rw [PathNode.CaseDistinct]
    decide
  have hcatalog : greetIndex.catalog.CaseDistinct := by
    refine ⟨by decide, fun s h => ?_⟩
    cases h
  have hascii : IsAscii "/NS.Greet(Name='ANN')" := Text.forall_of_all (by decide)
  have hascii' : IsAscii "/ns.greet(name='Ann')" := Text.forall_of_all (by decide)
  have hpath : Path.segments "/NS.Greet(Name='ANN')" = ["NS.Greet(Name='ANN')"] := rfl
  have hpath' : Path.segments "/ns.greet(name='Ann')" = ["ns.greet(name='Ann')"] := rfl
  have hletters : List.Forall₂ (fun t t' => sameLetters t t' = true)
      (Path.segments "/NS.Greet(Name='ANN')") (Path.segments "/ns.greet(name='Ann')") := by
    rw [hpath, hpath']
    exact .cons (by decide) .nil
  obtain ⟨-, hlowered⟩ := walk_ignores_case hsegments hcatalog hascii hascii' hletters
  refine ⟨hsegments, hcatalog, hascii, hascii', ?_⟩
  rw [hpath, hpath'] at hlowered
  refine hlowered ?_ 1
  intro t ht
  rcases List.mem_pair.1 ht with rfl | rfl
  · rw [Call.KeepsLetters]
    decide +kernel
  · rw [Call.KeepsLetters]
    decide +kernel

end Resolution

end ApiSnippets
