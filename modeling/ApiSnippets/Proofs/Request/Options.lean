import Mathlib.Data.List.ReduceOption
import ApiSnippets.Proofs.Entries
import ApiSnippets.Proofs.Request.Query
import ApiSnippets.Proofs.Text.Cut
import ApiSnippets.Proofs.Text.Outside
/-!
# The options of a query string

A query string is read pair by pair, and no pair has any influence on the
option of another one. What two query strings have in common is settled when
their options are put together: an option keeps the place of the first one of
its name and is the last one of its name (`parse_merges`). The value of a list
is cut at its commas outside of parentheses and quotes, and of its pieces those
that begin with a parenthesis are lost (`splitTopLevel_loses`).
-/

namespace ApiSnippets

namespace Query

open Text

variable {operation : Option Operation} {pairs : List (List Char)} {pair : List Char}
  {o : QueryOption} {options more : List QueryOption} {query value : String}
  {systemName : Option String} {shape : Option Shape} {t : Typed}

/-! ## Lists -/

/-- The items of a list value cut into pieces: the pieces trimmed, without the
empty ones. -/
def items (pieces : List (List Char)) : List (List Char) :=
  (pieces.map strip).filter fun item => !item.isEmpty

theorem splitTopLevelChars_eq {cs : List Char} {pieces : List (List Char)}
    (h : IsCut Outside ',' cs pieces) :
    splitTopLevelChars cs = (items pieces).filter fun item => item.head? != some '(' := by
  rw [splitTopLevelChars, (isCut_iff rfl).1 h, items, List.filter_filter]
  exact List.filter_congr fun item _ => Bool.and_comm _ _

/-- **The items of a list value** are its pieces between the commas outside of
parentheses and quotes, trimmed and not empty, but for those that begin with a
parenthesis: all the items are kept only where there is none. -/
theorem splitTopLevel_loses (value : String) :
    ∃ pieces, (∀ ps, IsCut Outside ',' value.toList ps ↔ ps = pieces) ∧
      splitTopLevel value =
        ((items pieces).filter fun item => item.head? != some '(').map String.ofList ∧
      (splitTopLevel value = (items pieces).map String.ofList ↔
        ∀ item ∈ items pieces, item.head? ≠ some '(') := by
  have hcut : IsCut Outside ',' value.toList _ := isCut_cutOutside rfl value.toList
  refine ⟨_, fun ps => isCut_iff rfl, ?_, ?_⟩
  · rw [splitTopLevel, splitTopLevelChars_eq hcut]
  · rw [splitTopLevel, splitTopLevelChars_eq hcut,
      List.map_inj_right fun _ _ => String.ofList_injective,
      List.filter_eq_self]
    simp only [bne_iff_ne]

/-- Of two orders the one with a parenthesis in front is lost. -/
theorem splitTopLevel_loses_order :
    IsCut Outside ',' "(a add b) desc,c".toList ["(a add b) desc".toList, "c".toList] ∧
      splitTopLevel "(a add b) desc,c" = ["c"] ∧
      parse "$orderby=(a add b) desc,c" none =
        .ok [⟨"orderby", "$orderby", true, .array, .list ["c"]⟩] := by
  have hpieces : IsCut Outside ',' "(a add b) desc,c".toList
      ["(a add b) desc".toList, "c".toList] := (isCut_iff rfl).2 (by decide)
  obtain ⟨pieces, hcut, hitems, -⟩ := splitTopLevel_loses "(a add b) desc,c"
  obtain rfl := (hcut _).1 hpieces
  exact ⟨hpieces, hitems.trans (by decide), by rfl⟩

/-! ## Kinds and values -/

/-- That a value is of a kind: a list of texts for an array, else a value of
the kind itself. -/
def Agrees : SchemaKind → OptionValue → Prop
  | .array, .list _ => True
  | .integer, .int _ => True
  | .number, .num _ => True
  | .boolean, .flag _ => True
  | .string, .text _ => True
  | _, _ => False

theorem asInteger?_agrees (h : asInteger? value = some (.ok t)) : Agrees t.1 t.2 := by
  unfold asInteger? at h
  split at h
  · obtain ⟨n, -, rfl⟩ := Outcome.map_eq_ok.1 (Option.some.inj h)
    trivial
  · cases h

theorem asBoolean?_agrees (h : asBoolean? value = some (.ok t)) : Agrees t.1 t.2 := by
  obtain ⟨b, -, hb⟩ := Option.map_eq_some_iff.1 h
  obtain rfl := Except.ok.inj hb
  trivial

theorem asList_agrees (h : asList value = .ok t) : Agrees t.1 t.2 := by
  obtain rfl := Except.ok.inj h
  trivial

theorem bySystemName?_agrees {name : String} (h : bySystemName? name value = some (.ok t)) :
    Agrees t.1 t.2 := by
  unfold bySystemName? at h
  split at h
  · exact asList_agrees (Option.some.inj h)
  · split at h
    · exact asInteger?_agrees h
    · split at h
      · exact asBoolean?_agrees h
      · cases h

theorem byShape?_agrees {s : Shape} (h : byShape? s value = some (.ok t)) : Agrees t.1 t.2 := by
  unfold byShape? at h
  split at h
  · exact asList_agrees (Option.some.inj h)
  · exact asInteger?_agrees h
  · obtain ⟨x, -, hx⟩ := Option.map_eq_some_iff.1 h
    obtain rfl := Except.ok.inj hx
    trivial
  · exact asBoolean?_agrees h
  · obtain rfl := Except.ok.inj (Option.some.inj h)
    trivial
  · obtain rfl := Except.ok.inj (Option.some.inj h)
    trivial
  · cases h
  · cases h

theorem byLooks_agrees (h : byLooks value = .ok t) : Agrees t.1 t.2 := by
  rcases of_getD_or h with hb | hi | htext
  · exact asBoolean?_agrees hb
  · exact asInteger?_agrees hi
  · obtain rfl := Except.ok.inj htext
    trivial

/-- Whatever decides the type of a value, the value is of that type. -/
theorem typed_agrees (h : typed systemName shape value = .ok t) : Agrees t.1 t.2 := by
  rcases of_getD_or h with hn | hs | hlooks
  · obtain ⟨name, -, hn⟩ := Option.bind_eq_some_iff.1 hn
    exact bySystemName?_agrees hn
  · obtain ⟨s, -, hs⟩ := Option.bind_eq_some_iff.1 hs
    exact byShape?_agrees hs
  · exact byLooks_agrees hlooks

theorem agrees_of_optionOf (h : optionOf operation pair = .ok (some o)) :
    Agrees o.kind o.value := by
  rw [optionOf_eq] at h
  split at h
  · cases h
  · obtain ⟨t, ht, ho⟩ := Outcome.map_eq_ok.1 h
    obtain rfl := Option.some.inj ho
    exact typed_agrees ht

/-! ## Options under their names -/

/-- Options as entries under their names. -/
def byName (options : List QueryOption) : Entries String QueryOption :=
  options.map fun o => (o.name, o)

theorem map_byName {β : Type} (f : String × QueryOption → β) :
    (byName options).map f = options.map fun o => f (o.name, o) :=
  List.map_map

theorem keys_byName : (byName options).keys = options.map (·.name) := by
  simp [byName, Entries.keys]

theorem get?_byName (name : String) :
    (byName options).get? name = options.find? fun o => o.name == name := by
  induction options with
  | nil => rfl
  | cons o options ih =>
    show List.lookup name ((o.name, o) :: byName options) = _
    rw [List.lookup_cons, List.find?_cons, BEq.comm (a := o.name)]
    cases name == o.name with
    | true => rfl
    | false => exact ih

/-- The options of a table that was made from options by their names. -/
theorem byName_values {entries : Entries String QueryOption}
    (h : ∀ e ∈ entries, e.1 = e.2.name) : byName entries.values = entries := by
  rw [byName, Entries.values, List.map_map]
  refine (List.map_congr_left fun e he => ?_).trans (List.map_id entries)
  exact Prod.ext (h e he).symm rfl

/-- The options found, one for each name: in the place of the first one of its
name, and equal to the last one. -/
def settled (found : List QueryOption) : List QueryOption :=
  (Entries.ofPairs (byName found)).values

theorem mem_of_mem_settled (h : o ∈ settled options) : o ∈ options := by
  obtain ⟨e, he, rfl⟩ := List.mem_map.1 h
  have hpair : e ∈ byName options := (Entries.mem_of_mem_putAll he).resolve_left (by simp)
  obtain ⟨o, ho, rfl⟩ := List.mem_map.1 hpair
  exact ho

theorem byName_settled (found : List QueryOption) :
    byName (settled found) = Entries.ofPairs (byName found) := by
  refine byName_values fun e he => ?_
  have hpair : e ∈ byName found := (Entries.mem_of_mem_putAll he).resolve_left (by simp)
  obtain ⟨o, -, rfl⟩ := List.mem_map.1 hpair
  rfl

theorem nodup_names_settled (found : List QueryOption) :
    ((settled found).map (·.name)).Nodup := by
  rw [← keys_byName, byName_settled]
  exact Entries.nodup_keys_ofPairs _

/-! ## Merging -/

/-- **Options with others merged in.** One whose name is among those of the
others is the other one, in its own place; the others with new names come
last. -/
def merge (options more : List QueryOption) : List QueryOption :=
  options.map (fun o => (more.find? (·.name == o.name)).getD o) ++
    more.filter fun o => !(options.map (·.name)).contains o.name

theorem values_putAll_byName (hoptions : (options.map (·.name)).Nodup)
    (hmore : (more.map (·.name)).Nodup) :
    ((byName options).putAll (byName more)).values = merge options more := by
  rw [← keys_byName] at hoptions hmore
  rw [Entries.putAll_eq hoptions hmore, Entries.values, List.map_append, List.map_map, merge]
  congr 1
  · rw [map_byName]
    exact List.map_congr_left fun o _ => by rw [Function.comp_apply, get?_byName]
  · rw [keys_byName, byName, List.filter_map, List.map_map]
    exact List.map_id _

/-- **What is found in two parts** is what is found in the first with what is
found in the second merged in. -/
theorem settled_append (found found' : List QueryOption) :
    settled (found ++ found') = merge (settled found) (settled found') := by
  rw [← values_putAll_byName (nodup_names_settled _) (nodup_names_settled _), byName_settled,
    byName_settled, Entries.putAll_ofPairs, settled, byName, List.map_append, Entries.ofPairs,
    Entries.putAll_append]
  rfl

/-! ## Query strings -/

/-- The options of pairs, one after the other. -/
def found (operation : Option Operation) (pairs : List (List Char)) : Outcome (List QueryOption) :=
  (Outcome.mapAll (optionOf operation) pairs).map List.reduceOption

theorem found_cons : found operation (pair :: pairs) =
    optionOf operation pair >>= fun o? => (found operation pairs).map (o?.toList ++ ·) := by
  rw [found, found, Outcome.mapAll]
  cases optionOf operation pair with
  | error e => rfl
  | ok o? =>
    cases Outcome.mapAll (optionOf operation) pairs with
    | error e => rfl
    | ok found => cases o? <;> rfl

theorem found_append {pairs' : List (List Char)} (h : found operation pairs = .ok options)
    (h' : found operation pairs' = .ok more) :
    found operation (pairs ++ pairs') = .ok (options ++ more) := by
  obtain ⟨os, hos, rfl⟩ := Outcome.map_eq_ok.1 h
  obtain ⟨os', hos', rfl⟩ := Outcome.map_eq_ok.1 h'
  rw [found, Outcome.mapAll_append, hos, hos']
  exact congrArg Except.ok (List.reduceOption_append os os')

/-- Every option is that of one of the pairs. -/
theorem exists_of_found (h : found operation pairs = .ok options) (ho : o ∈ options) :
    ∃ pair ∈ pairs, optionOf operation pair = .ok (some o) := by
  obtain ⟨os, hos, rfl⟩ := Outcome.map_eq_ok.1 h
  have hmem : some o ∈ os := List.reduceOption_mem_iff.1 ho
  obtain ⟨pair, hpair, h⟩ := Outcome.exists_of_forall₂ (Outcome.forall₂_of_mapAll hos) hmem
  exact ⟨pair, hpair, h⟩

theorem collect_eq (entries : Entries String QueryOption) :
    collect operation entries pairs =
      (found operation pairs).map fun options => entries.putAll (byName options) := by
  induction pairs generalizing entries with
  | nil => rfl
  | cons pair pairs ih =>
    rw [collect, found_cons]
    cases optionOf operation pair with
    | error e => rfl
    | ok o? =>
      cases o? with
      | none =>
        show collect operation entries pairs = _
        rw [ih]
        cases found operation pairs <;> rfl
      | some o =>
        show collect operation (entries.put o.name o) pairs = _
        rw [ih]
        cases found operation pairs <;> rfl

/-- **A query string is read pair by pair.** -/
theorem parse_eq (query : String) (operation : Option Operation) :
    parse query operation = (found operation (splitAll '&' query.toList)).map settled := by
  rw [parse, collect_eq]
  cases found operation (splitAll '&' query.toList) <;> rfl

theorem parse_eq_ok : parse query operation = .ok options ↔
    ∃ os, found operation (splitAll '&' query.toList) = .ok os ∧ settled os = options := by
  rw [parse_eq, Outcome.map_eq_ok]

/-- The option of a pair is what the pair is read as alone. -/
theorem parse_pair (hpair : '&' ∉ pair) (h : optionOf operation pair = .ok (some o)) :
    parse (String.ofList pair) operation = .ok [o] := by
  rw [parse_eq, String.toList_ofList, splitAll_of_not_mem hpair, found_cons, h]
  rfl

theorem parse_append {query' : String} (h : parse query operation = .ok options)
    (h' : parse query' operation = .ok more) :
    parse (query ++ "&" ++ query') operation = .ok (merge options more) := by
  obtain ⟨os, hos, rfl⟩ := parse_eq_ok.1 h
  obtain ⟨os', hos', rfl⟩ := parse_eq_ok.1 h'
  have hlist : (query ++ "&" ++ query').toList = query.toList ++ '&' :: query'.toList := by
    simp [String.toList_append]
  refine parse_eq_ok.2 ⟨os ++ os', ?_, settled_append os os'⟩
  rw [hlist, splitAll_append]
  exact found_append hos hos'

/-! ## Pairs without a name -/

/-- Whether a pair is no option: it is empty, or its name is blank. -/
def isNameless (pair : String) : Bool :=
  (pairName pair.toList).isEmpty

/-- A query string without the pairs that are no options. -/
def withoutNameless (query : String) : String :=
  String.intercalate "&" ((Text.pieces '&' query).filter fun pair => !isNameless pair)

theorem found_filter : found operation (pairs.filter fun pair => !(pairName pair).isEmpty) =
    found operation pairs := by
  induction pairs with
  | nil => rfl
  | cons pair pairs ih =>
    rw [found_cons, ← ih]
    cases hname : (pairName pair).isEmpty with
    | true =>
      rw [List.filter_cons_of_neg (by simp [hname]), optionOf_eq, if_pos hname]
      cases found operation (pairs.filter fun pair => !(pairName pair).isEmpty) <;> rfl
    | false => rw [List.filter_cons_of_pos (by simp [hname]), found_cons]

theorem toList_withoutNameless (query : String) : (withoutNameless query).toList =
    List.intercalate ['&']
      ((splitAll '&' query.toList).filter fun pair => !(pairName pair).isEmpty) := by
  rw [withoutNameless, Text.pieces, String.toList_intercalate, List.filter_map, List.map_map]
  simp [isNameless, Function.comp_def]

/-- **Pairs without a name have no effect**, whatever their value is. -/
theorem parse_withoutNameless (query : String) (operation : Option Operation) :
    parse (withoutNameless query) operation = parse query operation := by
  have hfound : found operation (splitAll '&' query.toList) = _ := found_filter.symm
  rw [parse_eq, parse_eq, toList_withoutNameless, hfound]
  cases hkept : (splitAll '&' query.toList).filter fun pair => !(pairName pair).isEmpty with
  | nil => rfl
  | cons first kept =>
    rw [splitAll_joined (List.cons_ne_nil _ _)]
    intro pair hpair
    rw [← hkept] at hpair
    exact not_mem_of_mem_splitAll _ (List.mem_of_mem_filter hpair)

/-- **Two query strings in one** are read as the first with the second merged
in: a name stays where it first occurs and takes the whole option that is last
of this name. No two options have one name, pairs without a name have no
effect, each option is what one of the pairs is read as alone, and its value is
of its kind. -/
theorem parse_merges {query' : String} (h : parse query operation = .ok options)
    (h' : parse query' operation = .ok more) :
    parse (query ++ "&" ++ query') operation = .ok (merge options more) ∧
      (options.map (·.name)).Nodup ∧
      parse (withoutNameless query) operation = .ok options ∧
      (∀ o ∈ options, ∃ pair ∈ Text.pieces '&' query, parse pair operation = .ok [o]) ∧
      ∀ o ∈ options, Agrees o.kind o.value := by
  refine ⟨parse_append h h', ?_, (parse_withoutNameless query operation).trans h, ?_, ?_⟩
  all_goals obtain ⟨os, hos, rfl⟩ := parse_eq_ok.1 h
  · exact nodup_names_settled os
  · intro o ho
    obtain ⟨pair, hpair, hoption⟩ := exists_of_found hos (mem_of_mem_settled ho)
    exact ⟨String.ofList pair, List.mem_map_of_mem hpair,
      parse_pair (not_mem_of_mem_splitAll _ hpair) hoption⟩
  · intro o ho
    obtain ⟨pair, -, hoption⟩ := exists_of_found hos (mem_of_mem_settled ho)
    exact agrees_of_optionOf hoption

/-- The option `$top` with a value. -/
def topOption (n : Int) : QueryOption where
  name := "top"
  rawName := "$top"
  system := true
  kind := .integer
  value := .int n

/-- The option `$select` with one item. -/
def selectOption : QueryOption where
  name := "select"
  rawName := "$select"
  system := true
  kind := .array
  value := .list ["id"]

/-- The second `$top` takes the place of the first, and a pair with a blank name
is nothing. -/
theorem parse_merges_top :
    parse "$top=1&$select=id" none = .ok [topOption 1, selectOption] ∧
      parse "&%20=x&$top=7" none = .ok [topOption 7] ∧
      parse "$top=1&$select=id&&%20=x&$top=7" none = .ok [topOption 7, selectOption] := by
  have hfirst : parse "$top=1&$select=id" none = .ok [topOption 1, selectOption] := by rfl
  have hsecond : parse "&%20=x&$top=7" none = .ok [topOption 7] := by rfl
  exact ⟨hfirst, hsecond, (parse_merges hfirst hsecond).1⟩

end Query

end ApiSnippets
