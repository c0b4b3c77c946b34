import ApiSnippets.Body.Build
import ApiSnippets.Proofs.Body.Mirrors
import ApiSnippets.Proofs.Text.Tokens
/-!
# The members of an enumeration

A text of an enumeration is read through its tokens, in any letter case. Of
flags, the node has the declared members that occur, in the order of their
declaration; otherwise it has the member of the first token that is one's.
Where no token is a member's, the first declared member stands in
(`value_normalises`). So among flags the text counts only as the set of its
tokens.
-/

namespace ApiSnippets

namespace Body

open Text (IsToken TokenAt fields)

variable {ix : Index} {s : Shape} {members selected : List String} {flags : Bool}
  {m hint text text' : String} {token : List Char}

/-! ## Tokens of members -/

/-- That a token is a member's, in any letter case. -/
def Names (m : String) (token : List Char) : Prop :=
  Text.lower m = Text.lower (String.ofList token)

/-- That a member occurs among the tokens of a text. -/
def Occurs (text m : String) : Prop :=
  ∃ token, IsToken isMemberSeparator text.toList token ∧ Names m token

/-- That a member is that of the first token that is a member's at all. -/
def IsFirstNamed (members : List String) (text m : String) : Prop :=
  m ∈ members ∧ ∃ before token after, text.toList = before ++ token ++ after ∧
    TokenAt isMemberSeparator before token after ∧ Names m token ∧
    ∀ earlier, IsToken isMemberSeparator before earlier → ∀ m ∈ members, ¬ Names m earlier

/-- That two texts have the same tokens, in any letter case and order, however
often and whatever stands between them. -/
def SameTokens (text text' : String) : Prop :=
  ∀ letters, (∃ token, IsToken isMemberSeparator text.toList token ∧
      Text.lower (String.ofList token) = letters) ↔
    ∃ token, IsToken isMemberSeparator text'.toList token ∧
      Text.lower (String.ofList token) = letters

/-- **What an enumeration keeps of a text**: declared members only, each once
and in the order of their declaration. -/
structure Normalises (members : List String) (flags : Bool) (text : String)
    (kept : List String) : Prop where
  ne_nil : kept ≠ []
  sublist : kept.Sublist members
  nodup : kept.Nodup
  ofFlags : flags = true → (∃ m ∈ members, Occurs text m) →
    ∀ m, m ∈ kept ↔ m ∈ members ∧ Occurs text m
  ofSingle : flags = false → (∃ m ∈ members, Occurs text m) →
    ∃ m, kept = [m] ∧ IsFirstNamed members text m
  fallback : (∀ m ∈ members, ¬ Occurs text m) → kept = members.take 1

theorem names_iff : Text.sameLetters m (String.ofList token) = true ↔ Names m token := by
  simp [Text.sameLetters, Names]

theorem occurs_iff_of_sameTokens (h : SameTokens text text') : Occurs text m ↔ Occurs text' m := by
  simpa only [Occurs, Names, eq_comm] using h (Text.lower m)

/-! ## The members that are named -/

/-- The member of a token. -/
theorem find?_named_eq_some_iff (hdistinct : (members.map Text.lower).Nodup) :
    (members.reverse.find? fun m => Text.sameLetters m (String.ofList token)) = some m ↔
      m ∈ members ∧ Names m token := by
  constructor
  · intro h
    exact ⟨List.mem_reverse.1 (List.mem_of_find?_eq_some h),
      names_iff.1 (by simpa using List.find?_some h)⟩
  · rintro ⟨hm, hnames⟩
    have hsome : (members.reverse.find? fun m =>
        Text.sameLetters m (String.ofList token)).isSome :=
      List.find?_isSome.2 ⟨m, List.mem_reverse.2 hm, names_iff.2 hnames⟩
    -- the last member with these letters is found, and there is only one
    obtain ⟨m', hm'⟩ := Option.isSome_iff_exists.1 hsome
    have hmem : m' ∈ members := List.mem_reverse.1 (List.mem_of_find?_eq_some hm')
    have hnames' : Names m' token := names_iff.1 (by simpa using List.find?_some hm')
    rw [hm', List.inj_on_of_nodup_map hdistinct hmem hm (hnames'.trans hnames.symm)]

theorem mem_namedMembers_iff (hdistinct : (members.map Text.lower).Nodup) :
    m ∈ namedMembers members text ↔ m ∈ members ∧ Occurs text m := by
  simp only [namedMembers, List.mem_filterMap, find?_named_eq_some_iff hdistinct,
    Text.mem_fields_iff, Occurs]
  exact ⟨fun ⟨token, htoken, hm, hnames⟩ => ⟨hm, token, htoken, hnames⟩,
    fun ⟨hm, token, htoken, hnames⟩ => ⟨token, htoken, hm, hnames⟩⟩

/-- The member that is named first. -/
theorem isFirstNamed_of_namedMembers {more : List String}
    (hdistinct : (members.map Text.lower).Nodup) (h : namedMembers members text = m :: more) :
    IsFirstNamed members text m := by
  obtain ⟨earlier, token, later, htokens, hearlier, htoken, -⟩ := List.filterMap_eq_cons_iff.1 h
  obtain ⟨hm, hnames⟩ := (find?_named_eq_some_iff hdistinct).1 htoken
  obtain ⟨before, after, htext, hat, hbefore, -⟩ := Text.fields_eq_append_cons_iff.1 htokens
  refine ⟨hm, before, token, after, htext, hat, hnames, fun other hother m' hm' hnames' => ?_⟩
  have hmem : other ∈ earlier := hbefore ▸ Text.mem_fields_iff.2 hother
  have hnone := hearlier other hmem
  rw [(find?_named_eq_some_iff hdistinct).2 ⟨hm', hnames'⟩] at hnone
  cases hnone

theorem namedMembers_eq_nil_iff (hdistinct : (members.map Text.lower).Nodup) :
    namedMembers members text = [] ↔ ∀ m ∈ members, ¬ Occurs text m := by
  simp only [List.eq_nil_iff_forall_not_mem, mem_namedMembers_iff hdistinct, not_and]

/-! ## The members that are kept -/

/-- The members that a node has: those selected, else the first. -/
def keptMembers (members : List String) (flags : Bool) (text : String) : List String :=
  match selectedMembers members flags text with
  | [] => members.take 1
  | selected => selected

theorem selectedMembers_eq_nil_iff (hdistinct : (members.map Text.lower).Nodup) :
    selectedMembers members flags text = [] ↔ ∀ m ∈ members, ¬ Occurs text m := by
  rw [← namedMembers_eq_nil_iff hdistinct, selectedMembers]
  cases flags with
  | true =>
    rw [if_pos rfl, List.filter_eq_nil_iff, namedMembers_eq_nil_iff hdistinct]
    simp only [List.contains_iff_mem, mem_namedMembers_iff hdistinct, not_and]
    exact forall₂_congr fun m hm => by simp [hm]
  | false => simp

theorem keptMembers_of_occurs (hdistinct : (members.map Text.lower).Nodup)
    (h : ∃ m ∈ members, Occurs text m) :
    keptMembers members flags text = selectedMembers members flags text := by
  rw [keptMembers]
  split
  · next hnil =>
    obtain ⟨m, hm, hoccurs⟩ := h
    exact absurd hoccurs ((selectedMembers_eq_nil_iff hdistinct).1 hnil m hm)
  · rfl

theorem keptMembers_of_not_occurs (hdistinct : (members.map Text.lower).Nodup)
    (h : ∀ m ∈ members, ¬ Occurs text m) : keptMembers members flags text = members.take 1 := by
  rw [keptMembers, (selectedMembers_eq_nil_iff hdistinct).2 h]

theorem mem_selectedMembers_iff (hdistinct : (members.map Text.lower).Nodup) :
    m ∈ selectedMembers members true text ↔ m ∈ members ∧ Occurs text m := by
  rw [selectedMembers, if_pos rfl, List.mem_filter, List.contains_iff_mem,
    mem_namedMembers_iff hdistinct, ← and_assoc, and_self]

theorem exists_selectedMembers (hdistinct : (members.map Text.lower).Nodup)
    (h : ∃ m ∈ members, Occurs text m) :
    ∃ m, selectedMembers members false text = [m] ∧ IsFirstNamed members text m := by
  obtain ⟨m, hm⟩ := h
  have hnamed : namedMembers members text ≠ [] :=
    List.ne_nil_of_mem ((mem_namedMembers_iff hdistinct).2 hm)
  obtain ⟨first, more, hfirst⟩ := List.exists_cons_of_ne_nil hnamed
  refine ⟨first, ?_, isFirstNamed_of_namedMembers hdistinct hfirst⟩
  rw [selectedMembers, hfirst]
  rfl

theorem normalises_keptMembers (hne : members ≠ []) (hdistinct : (members.map Text.lower).Nodup) :
    Normalises members flags text (keptMembers members flags text) := by
  have hnodup : members.Nodup := hdistinct.of_map Text.lower
  -- what is selected is kept when a member occurs, else the first one stands in
  by_cases h : ∃ m ∈ members, Occurs text m
  · have hkept : keptMembers members flags text = selectedMembers members flags text :=
      keptMembers_of_occurs hdistinct h
    have hsublist : (selectedMembers members flags text).Sublist members := by
      cases flags with
      | true => exact List.filter_sublist
      | false =>
        obtain ⟨m, hm, hfirst⟩ := exists_selectedMembers hdistinct h
        rw [hm]
        exact List.singleton_sublist.2 hfirst.1
    rw [hkept]
    refine ⟨fun hnil => ?_, hsublist, hsublist.nodup hnodup, ?_, ?_, ?_⟩
    · obtain ⟨m, hm, hoccurs⟩ := h
      exact (selectedMembers_eq_nil_iff hdistinct).1 hnil m hm hoccurs
    · rintro rfl -
      exact fun m => mem_selectedMembers_iff hdistinct
    · rintro rfl -
      exact exists_selectedMembers hdistinct h
    · intro hnone
      obtain ⟨m, hm, hoccurs⟩ := h
      exact absurd hoccurs (hnone m hm)
  · have hnone : ∀ m ∈ members, ¬ Occurs text m := fun m hm ho => h ⟨m, hm, ho⟩
    have hsublist : (members.take 1).Sublist members := List.take_sublist 1 members
    rw [keptMembers_of_not_occurs hdistinct hnone]
    exact ⟨by simpa using hne, hsublist, hsublist.nodup hnodup, fun _ ho => absurd ho h,
      fun _ ho => absurd ho h, fun _ => rfl⟩

/-- Flags are kept for the set of the tokens alone. -/
theorem keptMembers_congr (hdistinct : (members.map Text.lower).Nodup)
    (h : SameTokens text text') :
    keptMembers members true text = keptMembers members true text' := by
  have hselected : selectedMembers members true text = selectedMembers members true text' := by
    rw [selectedMembers, selectedMembers, if_pos rfl, if_pos rfl]
    refine List.filter_congr fun m hm => Bool.eq_iff_iff.2 ?_
    rw [List.contains_iff_mem, List.contains_iff_mem, mem_namedMembers_iff hdistinct,
      mem_namedMembers_iff hdistinct, occurs_iff_of_sameTokens h]
  rw [keptMembers, keptMembers, hselected]

/-! ## The node -/

/-- The type of an enumeration's node. -/
def enumType (s : Shape) (hint : String) : TypeRef :=
  ((s.typeName.filter (· ≠ "")).map TypeRef.ofName).getD
    { name := Naming.pascal hint, synthesized := true }

theorem outcome_enumNode (hmembers : enumMembers ix s = .ok (members, flags)) (hne : members ≠ []) :
    (enumNode ix s hint text).outcome =
      .ok (.enum (enumType s hint) (keptMembers members flags text) flags) := by
  obtain ⟨first, more, rfl⟩ := List.exists_cons_of_ne_nil hne
  refine Noted.outcome_bind_eq_ok.2 ⟨(first :: more, flags),
    (Noted.outcome_ofOutcome _).trans hmembers, ?_⟩
  cases hselected : selectedMembers (first :: more) flags text with
  | nil =>
    simp only [hselected, keptMembers]
    rfl
  | cons m selected => simp [keptMembers, enumType, hselected]

/-- A text under an enumeration's shape is read by its members. -/
theorem outcome_value_enum (hkind : s.kind = .enum) (near : Option String) :
    value ix (some s) near hint (.str text) = enumNode ix s hint text := by
  have hfault : leafFault (some s) hint (.str text) = none := by
    simp [leafFault, Shape.objectName?, isCollection, hkind]
  rw [value]
  simp only [hfault, textNode, hkind, if_true]

/-- **Texts of an enumeration are normalised.** Whatever a text is, the node
has declared members of the shape's enumeration: of flags those that occur in
it, otherwise the one that is named first, and the first declared one where
none occurs. Texts with the same tokens give the same flags. -/
theorem value_normalises (hkind : s.kind = .enum)
    (hmembers : enumMembers ix s = .ok (members, flags)) (hne : members ≠ [])
    (hdistinct : (members.map Text.lower).Nodup) (near : Option String) (hint : String) :
    (∃ type, ∀ text, ∃ kept,
      (value ix (some s) near hint (.str text)).outcome = .ok (.enum type kept flags) ∧
        Normalises members flags text kept) ∧
    (flags = true → ∀ text text', SameTokens text text' →
      (value ix (some s) near hint (.str text)).outcome =
        (value ix (some s) near hint (.str text')).outcome) := by
  have hread : ∀ text, (value ix (some s) near hint (.str text)).outcome =
      .ok (.enum (enumType s hint) (keptMembers members flags text) flags) := fun text => by
    rw [outcome_value_enum hkind, outcome_enumNode hmembers hne]
  refine ⟨⟨enumType s hint, fun text => ⟨_, hread text, normalises_keptMembers hne hdistinct⟩⟩, ?_⟩
  rintro rfl text text' hsame
  rw [hread, hread, keptMembers_congr hdistinct hsame]

/-- The flags of a recording. -/
def recordingStatus : Shape :=
  { kind := .enum, members := ["notRecording", "recording", "failed"], flags := true }

theorem value_normalises_recordingStatus :
    (∃ type, (value default (some recordingStatus) none "status"
        (.str "failed | Recording , notRecording")).outcome =
      .ok (.enum type ["notRecording", "recording", "failed"] true)) ∧
    Normalises recordingStatus.members true "failed | Recording , notRecording"
      ["notRecording", "recording", "failed"] ∧
    (value default (some recordingStatus) none "status" (.str "failed,Recording")).outcome =
      (value default (some recordingStatus) none "status"
        (.str "recording|FAILED  recording")).outcome := by
  have hmembers : enumMembers default recordingStatus = .ok (recordingStatus.members, true) := rfl
  have hdistinct : (recordingStatus.members.map Text.lower).Nodup := by decide +kernel
  obtain ⟨⟨type, hread⟩, hsame⟩ := value_normalises rfl hmembers (by decide) hdistinct none "status"
  obtain ⟨kept, hkept, hnormal⟩ := hread "failed | Recording , notRecording"
  have hvalue : kept = ["notRecording", "recording", "failed"] := by
    rw [outcome_value_enum rfl, outcome_enumNode hmembers (by decide)] at hkept
    injection hkept with hnode
    injection hnode with _ hkept
    exact hkept.symm.trans (by decide +kernel)
  rw [hvalue] at hkept hnormal
  refine ⟨⟨type, hkept⟩, hnormal, hsame rfl _ _ fun letters => ?_⟩
  simp only [← Text.mem_fields_iff]
  have hfirst : fields isMemberSeparator "failed,Recording".toList =
      ["failed".toList, "Recording".toList] := by decide +kernel
  have hsecond : fields isMemberSeparator "recording|FAILED  recording".toList =
      ["recording".toList, "FAILED".toList, "recording".toList] := by decide
  have hfailed : Text.lower "FAILED" = Text.lower "failed" := by decide +kernel
  have hrecording : Text.lower "Recording" = Text.lower "recording" := by decide +kernel
  rw [hfirst, hsecond]
  simp only [List.mem_cons, List.not_mem_nil, or_false, exists_eq_or_imp, exists_eq_left,
    String.ofList_toList, hfailed, hrecording]
  rw [or_left_comm, or_self]

end Body

end ApiSnippets
