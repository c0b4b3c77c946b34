import ApiSnippets.Proofs.Naming
import ApiSnippets.Proofs.Text.Case
/-!
# Names that are recased twice

Within a name that consists of letters and digits a word ends only before an
upper-case letter, so Pascal case puts the first character in upper case and
leaves the rest (`Naming.pascalChars_of_isWordChar`). What is in camel or Pascal
case is such a name: its Pascal case is that of the name it came from, and so
is its camel case (`Naming.pascal_camel`, `Naming.camel_pascal`). Snake case
keeps the words apart, and so they are found again (`Naming.wordsOf_snakeChars`).
Lower case is not so lenient, since no word ends in it
(`Naming.pascal_lower_eq_iff`).
-/

namespace ApiSnippets

namespace Naming

variable {c d : Char} {cs ds w : List Char} {ws : List (List Char)}

/-! ## First characters -/

theorem capitalize_append (hcs : cs ≠ []) :
    Text.capitalize (cs ++ ds) = Text.capitalize cs ++ ds := by
  obtain ⟨c, cs, rfl⟩ := List.exists_cons_of_ne_nil hcs
  exact (List.append_assoc _ _ _).symm

theorem isWordChar_of_isUpper (h : isUpper c = true) : isWordChar c = true := by
  simp [isWordChar, h]

/-- How a character of a word is recased: what it becomes first does not matter
to its upper case, and its case can be read off what changes it. -/
theorem recased (h : isWordChar c = true) :
    (Text.upperChar c = [c.toUpper] ∧ Text.upperChar c.toUpper = [c.toUpper] ∧
        (isUpper c = true → c.toUpper = c)) ∧
      (Text.lowerChar c = [c.toLower] ∧ Text.upperChar c.toLower = [c.toUpper] ∧
        (c.toLower = c ↔ isUpper c = false)) :=
  of_isWordChar (P := fun c =>
    (Text.upperChar c = [c.toUpper] ∧ Text.upperChar c.toUpper = [c.toUpper] ∧
        (isUpper c = true → c.toUpper = c)) ∧
      (Text.lowerChar c = [c.toLower] ∧ Text.upperChar c.toLower = [c.toUpper] ∧
        (c.toLower = c ↔ isUpper c = false))) (by decide +kernel) h

/-- An upper-case letter stays as it is. -/
theorem upperChar_of_isUpper (h : isUpper c = true) : Text.upperChar c = [c] := by
  obtain ⟨⟨hupper, -, hstays⟩, -⟩ := recased (isWordChar_of_isUpper h)
  rw [hupper, hstays h]

theorem upperChar_toLower (h : isWordChar c = true) :
    Text.upperChar c.toLower = Text.upperChar c := by
  obtain ⟨⟨hupper, -⟩, -, hlower, -⟩ := recased h
  rw [hlower, hupper]

theorem lowerFrom_of_isWordChar {afterCased : Bool} (h : ∀ c ∈ cs, isWordChar c = true) :
    Text.lowerFrom afterCased cs = cs.map Char.toLower := by
  induction cs generalizing afterCased with
  | nil => rfl
  | cons c cs ih =>
    obtain ⟨hc, hcs⟩ := List.forall_mem_cons.1 h
    have hsigma : c ≠ 'Σ' := by
      rintro rfl
      exact absurd hc (by decide)
    obtain ⟨-, hlower, -⟩ := recased hc
    rw [Text.lowerFrom, if_neg hsigma, hlower, ih hcs]
    rfl

theorem capitalize_capitalize (h : ∀ c ∈ cs, isWordChar c = true) :
    Text.capitalize (Text.capitalize cs) = Text.capitalize cs := by
  cases cs with
  | nil => rfl
  | cons c cs =>
    obtain ⟨⟨hupper, hagain, -⟩, -⟩ := recased (h c List.mem_cons_self)
    rw [Text.capitalize, hupper, List.singleton_append, Text.capitalize, hagain]
    rfl

theorem capitalize_decapitalize (h : ∀ c ∈ cs, isWordChar c = true) :
    Text.capitalize (Text.decapitalize cs) = Text.capitalize cs := by
  cases cs with
  | nil => rfl
  | cons c cs =>
    have hc := h c List.mem_cons_self
    have hlower : Text.lowerChars [c] = [c.toLower] :=
      lowerFrom_of_isWordChar (List.forall_mem_singleton.2 hc)
    rw [Text.decapitalize, hlower, List.singleton_append, Text.capitalize, upperChar_toLower hc,
      Text.capitalize]

/-! ## Pascal case -/

/-- The words of a name of letters and digits, one after the other, are the
name, and those behind the first begin with an upper-case letter. -/
theorem wordsOf_of_isWordChar (h : ∀ c ∈ cs, isWordChar c = true) (hne : cs ≠ []) :
    ∃ w ws, wordsOf cs = w :: ws ∧ w ≠ [] ∧ w ++ ws.flatten = cs ∧
      ∀ v ∈ ws, Text.capitalize v = v := by
  fun_induction wordsOf cs with
  | case1 => exact absurd rfl hne
  | case2 c hc => exact ⟨[c], [], rfl, by simp, by simp, by simp⟩
  | case3 c hc d after hend ih =>
    obtain ⟨-, hrest⟩ := List.forall_mem_cons.1 h
    obtain ⟨w, ws, hwords, hw, hflat, hupper⟩ := ih hrest (List.cons_ne_nil _ _)
    obtain ⟨e, w, rfl⟩ := List.exists_cons_of_ne_nil hw
    obtain ⟨rfl, hmore⟩ := List.cons.inj hflat
    -- the next character is in a word too, so the word ends for its upper case
    have hfirst : isUpper e = true := by
      rw [hrest e List.mem_cons_self] at hend
      simp only [Bool.not_true, Bool.false_or, isBoundary, Bool.and_eq_true] at hend
      exact hend.1
    refine ⟨[c], (e :: w) :: ws, by rw [hwords], List.cons_ne_nil _ _, by simp [← hmore], ?_⟩
    refine List.forall_mem_cons.2 ⟨?_, hupper⟩
    rw [Text.capitalize, upperChar_of_isUpper hfirst, List.singleton_append]
  | case4 c hc d after hend ih =>
    obtain ⟨-, hrest⟩ := List.forall_mem_cons.1 h
    obtain ⟨w, ws, hwords, -, hflat, hupper⟩ := ih hrest (List.cons_ne_nil _ _)
    exact ⟨c :: w, ws, by rw [hwords, extend], List.cons_ne_nil _ _, by simp [hflat], hupper⟩
  | case5 c cs hc =>
    exact absurd (h c List.mem_cons_self) hc

/-- **Pascal case of letters and digits** changes the first one only. -/
theorem pascalChars_of_isWordChar (h : ∀ c ∈ cs, isWordChar c = true) :
    pascalChars cs = Text.capitalize cs := by
  cases hcs : cs with
  | nil => rfl
  | cons c more =>
    rw [← hcs]
    obtain ⟨w, ws, hwords, hw, hflat, hupper⟩ :=
      wordsOf_of_isWordChar h (hcs ▸ List.cons_ne_nil c more)
    have hmore : ws.flatMap Text.capitalize = ws.flatten := by
      rw [List.flatMap_def, List.map_congr_left hupper, List.map_id']
    rw [pascalChars, hwords, List.flatMap_cons, hmore, ← capitalize_append hw, hflat]

theorem ne_nil_of_mem_wordsOf (h : w ∈ wordsOf cs) : w ≠ [] := by
  fun_induction wordsOf cs generalizing w with
  | case1 => cases h
  | case2 c hc =>
    rw [List.mem_singleton.1 h]
    exact List.cons_ne_nil _ _
  | case3 c hc d after hend ih =>
    rcases List.mem_cons.1 h with rfl | h
    · exact List.cons_ne_nil _ _
    · exact ih h
  | case4 c hc d after hend ih =>
    rcases mem_extend h with rfl | ⟨v, -, rfl⟩ | h
    · exact List.cons_ne_nil _ _
    · exact List.cons_ne_nil _ _
    · exact ih h
  | case5 c cs hc ih => exact ih h

theorem capitalize_ne_nil (h : ∀ c ∈ cs, isWordChar c = true) (hne : cs ≠ []) :
    Text.capitalize cs ≠ [] := by
  obtain ⟨c, cs, rfl⟩ := List.exists_cons_of_ne_nil hne
  obtain ⟨⟨hupper, -⟩, -⟩ := recased (h c List.mem_cons_self)
  rw [Text.capitalize, hupper]
  exact List.cons_ne_nil _ _

theorem capitalize_pascalChars (cs : List Char) :
    Text.capitalize (pascalChars cs) = pascalChars cs := by
  unfold pascalChars
  cases hwords : wordsOf cs with
  | nil => rfl
  | cons w ws =>
    have hmem : w ∈ wordsOf cs := hwords ▸ List.mem_cons_self
    have hw := isWordChar_of_mem_wordsOf hmem
    rw [List.flatMap_cons, capitalize_append (capitalize_ne_nil hw (ne_nil_of_mem_wordsOf hmem)),
      capitalize_capitalize hw]

theorem capitalize_camelChars (cs : List Char) :
    Text.capitalize (camelChars cs) = pascalChars cs := by
  rw [camelChars, capitalize_decapitalize fun _ => isWordChar_of_mem_pascalChars,
    capitalize_pascalChars]

/-- **Camel case and then Pascal case** is Pascal case. -/
theorem pascal_camel (name : String) : pascal (camel name) = pascal name := by
  rw [pascal, camel, String.toList_ofList,
    pascalChars_of_isWordChar fun _ => isWordChar_of_mem_camelChars, capitalize_camelChars, pascal]

/-! ## Recasing again -/

theorem pascalChars_pascalChars (cs : List Char) :
    pascalChars (pascalChars cs) = pascalChars cs := by
  rw [pascalChars_of_isWordChar fun _ => isWordChar_of_mem_pascalChars, capitalize_pascalChars]

/-- **Pascal case twice** is Pascal case. -/
theorem pascal_pascal (name : String) : pascal (pascal name) = pascal name := by
  rw [pascal, pascal, String.toList_ofList, pascalChars_pascalChars]

/-- Names with the same Pascal case have the same camel case. -/
theorem camel_congr {name other : String} (h : pascal name = pascal other) :
    camel name = camel other := by
  rw [pascal, pascal, String.ofList_inj] at h
  rw [camel, camel, camelChars, camelChars, h]

/-- **Camel case twice** is camel case. -/
theorem camel_camel (name : String) : camel (camel name) = camel name :=
  camel_congr (pascal_camel name)

/-- **Pascal case and then camel case** is camel case. -/
theorem camel_pascal (name : String) : camel (pascal name) = camel name :=
  camel_congr (pascal_pascal name)

theorem pascal_eq_self_iff {name : String} :
    pascal name = name ↔ pascalChars name.toList = name.toList := by
  rw [← String.toList_inj, pascal, String.toList_ofList]

theorem camel_eq_self_iff {name : String} :
    camel name = name ↔ camelChars name.toList = name.toList := by
  rw [← String.toList_inj, camel, String.toList_ofList]

/-- Names in Pascal case, one after the other, are a name in Pascal case. -/
theorem pascal_append {name other : String} (hname : pascal name = name)
    (hother : pascal other = other) : pascal (name ++ other) = name ++ other := by
  rw [pascal_eq_self_iff] at hname hother ⊢
  rw [String.toList_append]
  generalize name.toList = cs at hname ⊢
  generalize other.toList = ds at hother ⊢
  have hcs : ∀ c ∈ cs, isWordChar c = true := by
    rw [← hname]
    exact fun _ => isWordChar_of_mem_pascalChars
  have hds : ∀ c ∈ ds, isWordChar c = true := by
    rw [← hother]
    exact fun _ => isWordChar_of_mem_pascalChars
  rw [pascalChars_of_isWordChar hcs] at hname
  rw [pascalChars_of_isWordChar hds] at hother
  rw [pascalChars_of_isWordChar (List.forall_mem_append.2 ⟨hcs, hds⟩)]
  by_cases hempty : cs = []
  · rw [hempty, List.nil_append, hother]
  · rw [capitalize_append hempty, hname]

theorem decapitalize_append (hcs : cs ≠ []) :
    Text.decapitalize (cs ++ ds) = Text.decapitalize cs ++ ds := by
  obtain ⟨c, cs, rfl⟩ := List.exists_cons_of_ne_nil hcs
  exact (List.append_assoc _ _ _).symm

/-- A name in camel case stays one with letters and digits behind it. -/
theorem camel_append {name other : String} (hname : camel name = name) (hne : name ≠ "")
    (hother : ∀ c ∈ other.toList, isWordChar c = true) : camel (name ++ other) = name ++ other := by
  rw [camel_eq_self_iff] at hname ⊢
  rw [String.toList_append]
  have hempty : name.toList ≠ [] := by simpa using hne
  generalize name.toList = cs at hname hempty ⊢
  have hcs : ∀ c ∈ cs, isWordChar c = true := by
    rw [← hname]
    exact fun _ => isWordChar_of_mem_camelChars
  rw [camelChars, pascalChars_of_isWordChar hcs] at hname
  rw [camelChars, pascalChars_of_isWordChar (List.forall_mem_append.2 ⟨hcs, hother⟩),
    capitalize_append hempty, decapitalize_append (capitalize_ne_nil hcs hempty), hname]

/-- A name that is empty in camel case has no words. -/
theorem words_eq_nil_of_camel {name : String} (h : camel name = "") : words name = [] := by
  have hpascal : pascalChars name.toList = [] := by
    rw [← capitalize_camelChars, String.ofList_eq_empty_iff.1 h]
    rfl
  have hwords : wordsOf name.toList = [] := by
    refine List.eq_nil_iff_forall_not_mem.2 fun w hw => ?_
    have hempty : Text.capitalize w = [] := List.flatMap_eq_nil_iff.1 hpascal w hw
    exact capitalize_ne_nil (isWordChar_of_mem_wordsOf hw) (ne_nil_of_mem_wordsOf hw) hempty
  rw [words, hwords, List.map_nil]

/-! ## Snake case -/

/-- A word without capital letters. -/
structure IsLowerWord (w : List Char) : Prop where
  ne_nil : w ≠ []
  letters : ∀ c ∈ w, isWordChar c = true
  lower : ∀ c ∈ w, isUpper c = false

theorem isLowerWord_lowerChars (h : ∀ c ∈ w, isWordChar c = true) (hne : w ≠ []) :
    IsLowerWord (Text.lowerChars w) where
  ne_nil := by
    rw [Text.lowerChars, lowerFrom_of_isWordChar h]
    simpa using hne
  letters := isWordChar_lowerFrom h
  lower := by
    rw [Text.lowerChars, lowerFrom_of_isWordChar h]
    refine List.forall_mem_map.2 fun c hc => ?_
    exact of_isWordChar (P := fun c => isUpper c.toLower = false) (by decide +kernel) (h c hc)

namespace IsLowerWord

theorem lowerChars_eq (h : IsLowerWord w) : Text.lowerChars w = w := by
  rw [Text.lowerChars, lowerFrom_of_isWordChar h.letters]
  have hstays : w.map Char.toLower = w.map id :=
    List.map_congr_left fun c hc => (recased (h.letters c hc)).2.2.2.2 (h.lower c hc)
  rw [hstays, List.map_id]

/-- In front of a separator such a word is one word of a name. -/
theorem wordsOf_append (h : IsLowerWord w) (hcs : ∀ d ∈ cs.head?, isWordChar d = false) :
    wordsOf (w ++ cs) = w :: wordsOf cs := by
  obtain ⟨hne, hletters, hlower⟩ := h
  induction w with
  | nil => exact absurd rfl hne
  | cons c w ih =>
    obtain ⟨hc, hw⟩ := List.forall_mem_cons.1 hletters
    obtain ⟨-, hlower⟩ := List.forall_mem_cons.1 hlower
    cases w with
    | nil =>
      cases cs with
      | nil => simp [wordsOf, hc]
      | cons d cs => simp [wordsOf, hc, hcs d rfl]
    | cons d w =>
      have hend : isBoundary c d (w ++ cs) = false := by
        simp [isBoundary, hlower d List.mem_cons_self]
      have hrest := ih (List.cons_ne_nil _ _) hw hlower
      rw [List.cons_append, List.cons_append, wordsOf, if_pos hc]
      simp only [hw d List.mem_cons_self, hend, Bool.not_true, Bool.or_self, Bool.false_eq_true,
        if_false]
      rw [← List.cons_append, hrest, extend]

end IsLowerWord

/-- **The words of joined words** are these words. -/
theorem wordsOf_join (h : ∀ w ∈ ws, IsLowerWord w) : wordsOf (Text.join ['_'] ws) = ws := by
  induction ws with
  | nil => rfl
  | cons w ws ih =>
    obtain ⟨hw, hws⟩ := List.forall_mem_cons.1 h
    cases ws with
    | nil =>
      have hlast : wordsOf (w ++ []) = w :: wordsOf [] := hw.wordsOf_append (by simp)
      simpa [Text.join, wordsOf] using hlast
    | cons v ws =>
      have hsep : isWordChar '_' = false := by decide
      show wordsOf (w ++ ['_'] ++ Text.join ['_'] (v :: ws)) = w :: v :: ws
      rw [List.append_assoc, hw.wordsOf_append (by simp [hsep])]
      simpa [wordsOf, hsep] using ih hws

theorem isLowerWord_of_mem (hw : w ∈ (wordsOf cs).map Text.lowerChars) : IsLowerWord w := by
  obtain ⟨v, hv, rfl⟩ := List.mem_map.1 hw
  exact isLowerWord_lowerChars (isWordChar_of_mem_wordsOf hv) (ne_nil_of_mem_wordsOf hv)

/-- The words of a name in snake case, when the name has any. -/
theorem wordsOf_snakeChars (h : wordsOf cs ≠ []) :
    wordsOf (snakeChars cs) = (wordsOf cs).map Text.lowerChars := by
  have hjoin : wordsOf (Text.join ['_'] ((wordsOf cs).map Text.lowerChars)) =
      (wordsOf cs).map Text.lowerChars :=
    wordsOf_join fun _ => isLowerWord_of_mem
  unfold snakeChars
  split
  · next hnil =>
    rw [hnil] at hjoin
    exact absurd (List.map_eq_nil_iff.1 hjoin.symm) h
  · next c rest hcons =>
    rw [hcons] at hjoin
    split
    · -- the underscore in front of a digit is in no word
      have hsep : isWordChar '_' = false := by decide
      rw [wordsOf, if_neg (by simp [hsep]), hjoin]
    · exact hjoin

/-- Names with the same words in lower case have the same snake case. -/
theorem snakeChars_congr (h : (wordsOf cs).map Text.lowerChars = (wordsOf ds).map Text.lowerChars) :
    snakeChars cs = snakeChars ds := by
  rw [snakeChars, h, snakeChars]

/-- **Snake case twice** is snake case. -/
theorem snake_snake (name : String) : snake (snake name) = snake name := by
  rw [snake, snake, String.toList_ofList, String.ofList_inj]
  by_cases hwords : wordsOf name.toList = []
  · have hvalue : snakeChars name.toList = "value".toList := by
      rw [snakeChars, hwords]
      rfl
    rw [hvalue]
    decide +kernel
  · refine snakeChars_congr ?_
    rw [wordsOf_snakeChars hwords, List.map_map]
    refine List.map_congr_left fun w hw => ?_
    exact (isLowerWord_of_mem (List.mem_map_of_mem hw)).lowerChars_eq

/-! ## Parts of packages -/

/-- Pascal case goes through a name in camel case with a capital letter behind
it, and leaves what follows. -/
theorem pascalChars_camelChars_append (hds : ∀ d ∈ c :: ds, isWordChar d = true)
    (hc : isUpper c = true) :
    pascalChars (camelChars cs ++ c :: ds) = pascalChars cs ++ c :: ds := by
  have hall : ∀ d ∈ camelChars cs ++ c :: ds, isWordChar d = true :=
    List.forall_mem_append.2 ⟨fun _ => isWordChar_of_mem_camelChars, hds⟩
  rw [pascalChars_of_isWordChar hall]
  by_cases hempty : camelChars cs = []
  · have hpascal : pascalChars cs = [] := by
      rw [← capitalize_camelChars, hempty]
      rfl
    rw [hempty, hpascal, List.nil_append, Text.capitalize,
      upperChar_of_isUpper hc, List.singleton_append]
  · rw [capitalize_append hempty, capitalize_camelChars]

/-- The method for an alternate key in Pascal case. -/
theorem pascal_alternateKeyAccessor (collection key : String) :
    pascal (alternateKeyAccessor collection key) = pascal collection ++ "With" ++ pascal key := by
  have hword : ∀ d ∈ 'W' :: ("ith".toList ++ pascalChars key.toList), isWordChar d = true := by
    refine List.forall_mem_cons.2 ⟨by decide, List.forall_mem_append.2 ⟨?_, ?_⟩⟩
    · exact Text.forall_of_all (by decide)
    · exact fun _ => isWordChar_of_mem_pascalChars
  have hchars : (alternateKeyAccessor collection key).toList =
      camelChars collection.toList ++ 'W' :: ("ith".toList ++ pascalChars key.toList) := by
    simp [alternateKeyAccessor, camel, pascal]
  rw [← String.toList_inj, pascal, String.toList_ofList, hchars,
    pascalChars_camelChars_append hword (by decide)]
  simp [pascal]

/-- A type cast in Pascal case. -/
theorem pascal_graph (name : String) :
    pascal ("graph" ++ pascal name) = "Graph" ++ pascal name := by
  have hword : ∀ d ∈ "graph".toList ++ pascalChars name.toList, isWordChar d = true :=
    List.forall_mem_append.2
      ⟨Text.forall_of_all (by decide), fun _ => isWordChar_of_mem_pascalChars⟩
  have hchars : ("graph" ++ pascal name).toList = "graph".toList ++ pascalChars name.toList := by
    simp [pascal]
  have hgraph : Text.capitalize "graph".toList = "Graph".toList := rfl
  rw [← String.toList_inj, pascal, String.toList_ofList, hchars, pascalChars_of_isWordChar hword,
    capitalize_append (by decide), hgraph]
  simp [pascal]

/-! ## Lower case -/

/-- **Lower case takes the words of a name with it**: a name of letters and
digits has the same Pascal case afterwards when it is one word. -/
theorem pascal_lower_eq_iff {name : String} (h : ∀ c ∈ name.toList, isWordChar c = true) :
    pascal (Text.lower name) = pascal name ↔ ∀ c ∈ name.toList.tail, isUpper c = false := by
  have hlower : ∀ c ∈ Text.lowerChars name.toList, isWordChar c = true := isWordChar_lowerFrom h
  rw [pascal, pascal, String.ofList_inj, Text.lower, String.toList_ofList,
    pascalChars_of_isWordChar hlower, pascalChars_of_isWordChar h, Text.lowerChars,
    lowerFrom_of_isWordChar h]
  cases hname : name.toList with
  | nil => simp
  | cons c cs =>
    rw [hname] at h
    obtain ⟨hc, hcs⟩ := List.forall_mem_cons.1 h
    have hmap : cs.map Char.toLower = cs ↔ ∀ d ∈ cs, d.toLower = d := by
      simpa using List.map_inj_left (f := Char.toLower) (g := id) (l := cs)
    rw [List.map_cons, Text.capitalize, Text.capitalize, upperChar_toLower hc,
      List.append_cancel_left_eq, List.tail_cons, hmap]
    exact forall₂_congr fun d hd => (recased (hcs d hd)).2.2.2

end Naming

end ApiSnippets
