import Mathlib.Data.List.Nodup
import ApiSnippets.Proofs.Code.Imports
import ApiSnippets.Proofs.Entries
import ApiSnippets.Proofs.Naming
import ApiSnippets.Proofs.Text.Cut
import ApiSnippets.Proofs.Text.Quoted
/-!
# The order of imports

The lines of imports come in three parts: what every snippet of the language
needs, what the configuration needs, what the body needs. Each part ascends and
has the lines of its group that are not given before (`Imports.InOrder`), so no
line is there twice and none is missing. Imports are put in order before they
are written; that their lines are in order, too, needs that no two imports of a
language have the same line (`ImportStyle.Distinguishes`).

In TypeScript the lines are joined to one statement for each module, which has
the names of the lines for this module and no others (`TypeScript.Merges`).
-/

namespace ApiSnippets

/-- Different things with different texts are sorted by these in a strict way. -/
theorem ascending_mergeSort {α : Type} {text : α → String} {xs : List α} (hnodup : xs.Nodup)
    (hinj : ∀ x ∈ xs, ∀ y ∈ xs, text x = text y → x = y) :
    (xs.mergeSort fun x y => decide (text x ≤ text y)).Pairwise fun x y => text x < text y := by
  have hsorted : (xs.mergeSort fun x y => decide (text x ≤ text y)).Pairwise
      fun x y => decide (text x ≤ text y) = true := by
    refine List.pairwise_mergeSort ?_ ?_ _
    · intro x y z hxy hyz
      exact decide_eq_true (String.le_trans (of_decide_eq_true hxy) (of_decide_eq_true hyz))
    · intro x y
      simpa using String.le_total (text x) (text y)
  have hdistinct := (List.mergeSort_perm xs fun x y => decide (text x ≤ text y)).nodup_iff.2 hnodup
  refine (hsorted.and hdistinct).imp_of_mem fun {x y} hx hy hxy => String.not_le.1 fun hyx => ?_
  have hsame := String.le_antisymm (of_decide_eq_true hxy.1) hyx
  exact hxy.2 (hinj x (List.mem_mergeSort.1 hx) y (List.mem_mergeSort.1 hy) hsame)

/-! ## Lines of imports -/

/-- The imports that a language may ask for are told apart by their lines. -/
structure ImportStyle.Distinguishes (s : ImportStyle) (P : Import → Prop) : Prop where
  root : ∀ i ∈ s.root, P i
  configuration : ∀ r, ∀ i ∈ s.configuration r, P i
  model : ∀ segments t, P (s.model segments t)
  literal : ∀ n, ∀ i ∈ s.literal n, P i
  write_inj : ∀ {i j}, P i → P j → s.write i = s.write j → i = j

namespace Imports

variable {s : ImportStyle} {P : Import → Prop} {i : Import} {imports before : List Import}
variable {group given part root configuration models lines : List String}

/-- The lines of a group that are not given before, in ascending order. -/
structure IsPart (group given part : List String) : Prop where
  ascending : part.Pairwise (· < ·)
  mem : ∀ line, line ∈ part ↔ line ∈ group ∧ line ∉ given

/-- Lines in three parts, each without what an earlier one has. -/
def InOrder (root configuration models lines : List String) : Prop :=
  ∃ a b c, lines = a ++ b ++ c ∧ IsPart root [] a ∧ IsPart configuration root b ∧
    IsPart models (root ++ configuration) c

theorem IsPart.nodup (h : IsPart group given part) : part.Nodup := by
  refine h.ascending.imp ?_
  rintro line _ hlt rfl
  exact String.lt_irrefl line hlt

/-- It does not matter how often and where the earlier lines are given. -/
theorem IsPart.congr {given' : List String} (h : IsPart group given part)
    (hgiven : ∀ line, line ∈ given ↔ line ∈ given') : IsPart group given' part where
  ascending := h.ascending
  mem line := by rw [h.mem, hgiven]

theorem InOrder.mem_iff (h : InOrder root configuration models lines) {line : String} :
    line ∈ lines ↔ line ∈ root ∨ line ∈ configuration ∨ line ∈ models := by
  obtain ⟨a, b, c, rfl, ha, hb, hc⟩ := h
  rw [List.mem_append, List.mem_append, ha.mem, hb.mem, hc.mem, List.mem_append]
  by_cases hroot : line ∈ root <;> by_cases hconfiguration : line ∈ configuration <;>
    simp [hroot, hconfiguration]

theorem InOrder.nodup (h : InOrder root configuration models lines) : lines.Nodup := by
  obtain ⟨a, b, c, rfl, ha, hb, hc⟩ := h
  rw [List.nodup_append, List.nodup_append]
  refine ⟨⟨ha.nodup, hb.nodup, fun x hx y hy hxy => ?_⟩, hc.nodup, fun x hx y hy hxy => ?_⟩
  · exact ((hb.mem y).1 hy).2 (hxy ▸ ((ha.mem x).1 hx).1)
  · have hgiven := ((hc.mem y).1 hy).2
    rw [← hxy, List.mem_append, not_or] at hgiven
    rcases List.mem_append.1 hx with hx | hx
    · exact hgiven.1 ((ha.mem x).1 hx).1
    · exact hgiven.2 ((hb.mem x).1 hx).1

/-! ## Groups of imports -/

/-- The imports of a group that an earlier group does not have. -/
def fresh (s : ImportStyle) (before imports : List Import) : List Import :=
  (sorted s imports).filter fun i => !before.contains i

theorem mem_fresh : i ∈ fresh s before imports ↔ i ∈ imports ∧ i ∉ before := by
  rw [fresh, List.mem_filter, mem_sorted]
  simp

/-- **The lines of a group ascend**, where no two imports have the same one. -/
theorem isPart_fresh (hs : s.Distinguishes P) (himports : ∀ i ∈ imports, P i)
    (hbefore : ∀ i ∈ before, P i) :
    IsPart (imports.map s.write) (before.map s.write) ((fresh s before imports).map s.write) where
  ascending := by
    have hsorted : (sorted s imports).Pairwise fun i j => s.write i < s.write j := by
      refine ascending_mergeSort (nodup_eraseDups imports) fun i hi j hj hij => ?_
      exact hs.write_inj (himports i (List.mem_eraseDups.1 hi))
        (himports j (List.mem_eraseDups.1 hj)) hij
    exact List.pairwise_map.2 (hsorted.filter _)
  mem line := by
    simp only [List.mem_map, mem_fresh]
    constructor
    · rintro ⟨i, ⟨hi, hnew⟩, rfl⟩
      refine ⟨⟨i, hi, rfl⟩, ?_⟩
      rintro ⟨j, hj, hij⟩
      exact hnew (hs.write_inj (hbefore j hj) (himports i hi) hij ▸ hj)
    · rintro ⟨⟨i, hi, rfl⟩, hnew⟩
      exact ⟨i, ⟨hi, fun hmem => hnew ⟨i, hmem, rfl⟩⟩, rfl⟩

/-- **The lines of three groups are in order.** -/
theorem inOrder_ordered (hs : s.Distinguishes P) {first second third : List Import}
    (hfirst : ∀ i ∈ first, P i) (hsecond : ∀ i ∈ second, P i) (hthird : ∀ i ∈ third, P i) :
    InOrder (first.map s.write) (second.map s.write) (third.map s.write)
      ((ordered s [] [first, second, third]).map s.write) := by
  have ha := isPart_fresh hs hfirst (List.forall_mem_nil P)
  have hfresh : ∀ i ∈ fresh s [] first, P i := fun i hi => hfirst i (mem_fresh.1 hi).1
  have hb := isPart_fresh hs hsecond hfresh
  have hmore : ∀ i ∈ fresh s [] first ++ fresh s (fresh s [] first) second, P i :=
    List.forall_mem_append.2 ⟨hfresh, fun i hi => hsecond i (mem_fresh.1 hi).1⟩
  have hc := isPart_fresh hs hthird hmore
  have hroot : ∀ line, line ∈ (fresh s [] first).map s.write ↔ line ∈ first.map s.write := by
    intro line
    rw [ha.mem]
    simp
  refine ⟨_, _, _, ?_, ha, hb.congr hroot, hc.congr fun line => ?_⟩
  · rw [← List.map_append, ← List.map_append]
    rfl
  · rw [List.map_append, List.mem_append, List.mem_append, hb.mem, hroot]
    by_cases h : line ∈ first.map s.write <;> simp [h]

end Imports

/-! ## The imports of each language -/

section Texts

variable {a b start ending : String} {c : Char} {cs ds es fs : List Char}

/-- The text before the first place of a pattern, and the text behind it. -/
def partition (pattern : List Char) : List Char → List Char × List Char
  | [] => ([], [])
  | c :: cs =>
    if pattern.isPrefixOf (c :: cs) then ([], (c :: cs).drop pattern.length)
    else
      let (before, behind) := partition pattern cs
      (c :: before, behind)

theorem partition_append (hcs : c ∉ cs) :
    partition (c :: ds) (cs ++ c :: (ds ++ es)) = (cs, es) := by
  induction cs with
  | nil =>
    have hprefix : (c :: ds).isPrefixOf (c :: (ds ++ es)) = true :=
      List.isPrefixOf_iff_prefix.2 ⟨es, rfl⟩
    rw [List.nil_append, partition, if_pos hprefix]
    simp
  | cons d cs ih =>
    obtain ⟨hd, hcs⟩ := not_or.1 (mt List.mem_cons.2 hcs)
    have hprefix : (c :: ds).isPrefixOf (d :: (cs ++ c :: (ds ++ es))) = false := by
      simp [List.isPrefixOf, hd]
    rw [List.cons_append, partition, hprefix, ih hcs]
    rfl

theorem eq_of_enclosed (h : start ++ a ++ ending = start ++ b ++ ending) : a = b := by
  simpa [← String.toList_inj] using h

theorem eq_of_cut (hcs : c ∉ cs) (hds : c ∉ ds) (h : cs ++ c :: es = ds ++ c :: fs) :
    cs = ds ∧ es = fs := by
  have hcut := congrArg (Text.cutAt c) h
  rw [Text.cutAt_append hcs, Text.cutAt_append hds] at hcut
  simpa using hcut

/-- Texts are cut at the same place when as many separators stand before it. -/
theorem eq_of_count (hcount : cs.count c = ds.count c) (h : cs ++ c :: es = ds ++ c :: fs) :
    cs = ds ∧ es = fs := by
  induction cs generalizing ds with
  | nil =>
    cases ds with
    | nil => simpa using h
    | cons d ds =>
      obtain ⟨rfl, -⟩ := List.cons.inj h
      simp at hcount
  | cons b cs ih =>
    cases ds with
    | nil =>
      obtain ⟨rfl, -⟩ := List.cons.inj h
      simp at hcount
    | cons d ds =>
      obtain ⟨rfl, hrest⟩ := List.cons.inj h
      obtain ⟨rfl, rfl⟩ := ih (by simpa [List.count_cons] using hcount) hrest
      exact ⟨rfl, rfl⟩

end Texts

theorem CSharp.distinguishes {s : ImportStyle} (hs : CSharp.language.imports = some s) :
    s.Distinguishes fun i => i.name = "" := by
  obtain rfl := Option.some.inj hs
  refine ⟨by simp, by simp, fun _ _ => rfl, by simp, ?_⟩
  rintro ⟨_, a⟩ ⟨_, b⟩ rfl rfl h
  obtain rfl : a = b := eq_of_enclosed h
  rfl

namespace Php

theorem name_literalImports {n : BodyNode} {i : Import} (h : i ∈ literalImports n) :
    i.name = "" := by
  unfold literalImports at h
  split at h
  · exact List.mem_singleton.1 h ▸ rfl
  · exact List.mem_singleton.1 h ▸ rfl
  · cases h

theorem distinguishes {s : ImportStyle} (hs : language.imports = some s) :
    s.Distinguishes fun i => i.name = "" := by
  obtain rfl := Option.some.inj hs
  refine ⟨by simp, by simp [qualified], fun _ _ => rfl, fun _ _ => name_literalImports, ?_⟩
  rintro ⟨_, a⟩ ⟨_, b⟩ rfl rfl h
  obtain rfl : a = b := eq_of_enclosed h
  rfl

end Php

namespace Python

variable {i j : Import} {cs : List Char}

theorem blank_not_mem_package {parts : List String}
    (h : ∀ part ∈ parts, ' ' ∉ part.toList) : ' ' ∉ (package parts).toList := by
  have hjoin : ∀ parts : List String, (∀ part ∈ parts, ' ' ∉ part.toList) →
      ' ' ∉ (String.intercalate "." parts).toList := by
    intro parts h
    rw [String.toList_intercalate]
    induction parts with
    | nil => simp
    | cons part parts ih =>
      obtain ⟨hpart, hparts⟩ := List.forall_mem_cons.1 h
      cases parts with
      | nil => simpa using hpart
      | cons next parts => simpa [List.intercalate, hpart] using ih hparts
  exact hjoin _ (List.forall_mem_cons.2 ⟨by decide, h⟩)

theorem blank_not_mem_snake (name : String) : ' ' ∉ (Naming.snake name).toList := by
  rw [Naming.snake, String.toList_ofList]
  intro h
  rcases Naming.isWordChar_of_mem_snakeChars h with h | h
  · exact absurd h (by decide)
  · exact absurd h (by decide)

theorem blank_not_mem_snakes (names : List String) :
    ∀ part ∈ names.map Naming.snake, ' ' ∉ part.toList := by
  intro part hpart
  obtain ⟨name, -, rfl⟩ := List.mem_map.1 hpart
  exact blank_not_mem_snake name

theorem blank_not_mem_configurationImports {r : ResolvedRequest}
    (h : i ∈ configurationImports r) : ' ' ∉ i.source.toList := by
  have hbuilder : ' ' ∉ (package ((Package.parts r.segments).map Naming.snake ++
      [Naming.snake (Package.builder r.segments)])).toList :=
    blank_not_mem_package (List.forall_mem_append.2 ⟨blank_not_mem_snakes _,
      List.forall_mem_singleton.2 (blank_not_mem_snake _)⟩)
  rcases List.mem_append.1 h with h | h
  · split at h
    · cases h
    · exact List.mem_singleton.1 h ▸ hbuilder
  · rw [List.mem_singleton.1 h]
    decide

theorem blank_not_mem_model (segments : List PathSegment) (t : TypeRef) :
    ' ' ∉ (model segments t).source.toList := by
  refine blank_not_mem_package (List.forall_mem_append.2 ⟨?_,
    List.forall_mem_singleton.2 (blank_not_mem_snake _)⟩)
  split
  · exact blank_not_mem_snakes _
  · exact List.forall_mem_cons.2 ⟨by decide, blank_not_mem_snakes _⟩

theorem blank_not_mem_literalImports {n : BodyNode} (h : i ∈ literalImports n) :
    ' ' ∉ i.source.toList := by
  unfold literalImports at h
  split at h
  · obtain ⟨name, -, rfl⟩ : ∃ name, _ ∧ (⟨name, "datetime"⟩ : Import) = i := by simpa using h
    show ' ' ∉ "datetime".toList
    decide
  · rw [List.mem_singleton.1 h]
    decide
  · rw [List.mem_singleton.1 h]
    decide
  · rw [List.mem_singleton.1 h]
    decide
  · cases h

theorem eq_of_writeImport (hi : ' ' ∉ i.source.toList) (hj : ' ' ∉ j.source.toList)
    (h : writeImport i = writeImport j) : i = j := by
  obtain ⟨name, source⟩ := i
  obtain ⟨name', source'⟩ := j
  have hmodule : ∀ name source, source.isEmpty = true →
      (writeImport ⟨name, source⟩).toList = 'i' :: ("mport ".toList ++ name.toList) := by
    intro name source h
    simp [writeImport, h]
  have hfrom : ∀ name source, source.isEmpty = false →
      (writeImport ⟨name, source⟩).toList =
        'f' :: ("rom ".toList ++ (source.toList ++ ' ' :: ("import ".toList ++ name.toList))) := by
    intro name source h
    simp [writeImport, h]
  have htext := congrArg String.toList h
  -- the first letter tells an import of a module from one out of a module
  cases hempty : source.isEmpty with
  | true =>
    cases hempty' : source'.isEmpty with
    | true =>
      rw [hmodule _ _ hempty, hmodule _ _ hempty', List.cons_inj_right, List.append_cancel_left_eq,
        String.toList_inj] at htext
      rw [htext, String.isEmpty_iff.1 hempty, String.isEmpty_iff.1 hempty']
    | false =>
      rw [hmodule _ _ hempty, hfrom _ _ hempty'] at htext
      exact absurd (List.cons.inj htext).1 (by decide)
  | false =>
    cases hempty' : source'.isEmpty with
    | true =>
      rw [hfrom _ _ hempty, hmodule _ _ hempty'] at htext
      exact absurd (List.cons.inj htext).1 (by decide)
    | false =>
      rw [hfrom _ _ hempty, hfrom _ _ hempty', List.cons_inj_right,
        List.append_cancel_left_eq] at htext
      obtain ⟨hsource, hname⟩ := eq_of_cut hi hj htext
      rw [List.append_cancel_left_eq, String.toList_inj] at hname
      have hsource : source = source' := String.toList_inj.1 hsource
      rw [hname, hsource]

theorem distinguishes {s : ImportStyle} (hs : language.imports = some s) :
    s.Distinguishes fun i => ' ' ∉ i.source.toList := by
  obtain rfl := Option.some.inj hs
  exact ⟨List.forall_mem_singleton.2 (by decide), fun _ _ => blank_not_mem_configurationImports,
    blank_not_mem_model, fun _ _ => blank_not_mem_literalImports, eq_of_writeImport⟩

end Python

namespace Go

variable {i j : Import}

/-- An import under an alias has as many blanks in the alias as in the path. -/
def IsAliased (i : Import) : Prop :=
  (∃ c cs, i.name.toList = c :: cs ∧ c ≠ '"') ∧ i.name.toList.count ' ' = i.source.toList.count ' '

theorem count_slashes (part : String) (parts : List String) :
    (String.intercalate "/" (part :: parts)).toList.count ' ' =
      part.toList.count ' ' + (String.join parts).toList.count ' ' := by
  rw [String.toList_intercalate, String.toList_join]
  induction parts generalizing part with
  | nil => simp
  | cons next parts ih =>
    have hcut : List.intercalate "/".toList ((part :: next :: parts).map String.toList) =
        part.toList ++ '/' :: List.intercalate "/".toList ((next :: parts).map String.toList) := by
      simp [List.intercalate]
    rw [hcut, List.count_append, List.count_cons, ih]
    simp

theorem isAliased_packageImport (segments : List PathSegment) :
    IsAliased (packageImport segments) := by
  refine ⟨⟨'g', "raph".toList ++ (Package.nested segments).1.toList, ?_, by decide⟩, ?_⟩
  · simp [packageImport]
  · have halias : "graph".toList.count ' ' = 0 := by decide
    have hpath : (moduleName ++ "/").toList.count ' ' = 0 := by decide
    simp only [packageImport, String.toList_append, List.count_append] at hpath ⊢
    omega

theorem isAliased_model (segments : List PathSegment) (t : TypeRef) :
    IsAliased (model segments t) := by
  unfold model
  split
  · exact isAliased_packageImport _
  · refine ⟨⟨'g', "raphmodels".toList ++
      (String.join ((Package.modelParts t).map Text.lower)).toList, ?_, by decide⟩, ?_⟩
    · simp [modelPackage]
    · have halias : "graphmodels".toList.count ' ' = 0 := by decide
      have hpath : (moduleName ++ "/").toList.count ' ' = 0 := by decide
      have hmodels : "models".toList.count ' ' = 0 := by decide
      simp only [modelPackage, String.toList_append, List.count_append, count_slashes] at hpath ⊢
      omega

theorem eq_of_writeImport (hi : i.name = "" ∨ IsAliased i) (hj : j.name = "" ∨ IsAliased j)
    (h : writeImport i = writeImport j) : i = j := by
  obtain ⟨name, source⟩ := i
  obtain ⟨name', source'⟩ := j
  have hplain : ∀ source, (writeImport ⟨"", source⟩).toList = '"' :: (source.toList ++ ['"']) := by
    intro source
    simp [writeImport]
  have halias : ∀ {name source}, IsAliased ⟨name, source⟩ →
      (writeImport ⟨name, source⟩).toList =
        name.toList ++ ' ' :: ('"' :: (source.toList ++ ['"'])) := by
    rintro name source ⟨⟨c, cs, hname, -⟩, -⟩
    have hne : name.isEmpty = false := by
      rw [Bool.eq_false_iff, Ne, String.isEmpty_iff]
      rintro rfl
      cases hname
    simp [writeImport, hne]
  -- an alias does not begin with a quote
  have hmixed : ∀ {source name' source'}, IsAliased ⟨name', source'⟩ →
      writeImport ⟨"", source⟩ ≠ writeImport ⟨name', source'⟩ := by
    intro source name' source' hi h
    have htext := congrArg String.toList h
    obtain ⟨c, cs, hname, hc⟩ := hi.1
    have hname : name'.toList = c :: cs := hname
    rw [hplain, halias hi, hname, List.cons_append] at htext
    exact hc (List.cons.inj htext).1.symm
  have htext := congrArg String.toList h
  rcases hi with rfl | hi <;> rcases hj with rfl | hj
  · rw [hplain, hplain, List.cons_inj_right, List.append_cancel_right_eq,
      String.toList_inj] at htext
    rw [htext]
  · exact (hmixed hj h).elim
  · exact (hmixed hi h.symm).elim
  · rw [halias hi, halias hj] at htext
    -- the blanks of a line say how many of them stand in its alias
    have hcount : name.toList.count ' ' = name'.toList.count ' ' := by
      have hcount := congrArg (List.count ' ') htext
      have hi : name.toList.count ' ' = source.toList.count ' ' := hi.2
      have hj : name'.toList.count ' ' = source'.toList.count ' ' := hj.2
      simp [List.count_append] at hcount
      omega
    obtain ⟨hname, hsource⟩ := eq_of_count hcount htext
    rw [List.cons_inj_right, List.append_cancel_right_eq, String.toList_inj] at hsource
    rw [String.toList_inj.1 hname, hsource]

theorem name_literalImports {n : BodyNode} (h : i ∈ literalImports n) : i.name = "" := by
  unfold literalImports at h
  split at h
  · exact List.mem_singleton.1 h ▸ rfl
  · exact List.mem_singleton.1 h ▸ rfl
  · exact List.mem_singleton.1 h ▸ rfl
  · cases h

theorem isAliased_configurationImports {r : ResolvedRequest} (h : i ∈ configurationImports r) :
    IsAliased i := by
  rcases List.mem_cons.1 h with rfl | h
  · exact isAliased_packageImport _
  · split at h
    · cases h
    · obtain rfl := List.mem_singleton.1 h
      exact ⟨⟨'a', "bstractions".toList, rfl, by decide⟩, by decide⟩

theorem distinguishes {s : ImportStyle} (hs : language.imports = some s) :
    s.Distinguishes fun i => i.name = "" ∨ IsAliased i := by
  obtain rfl := Option.some.inj hs
  have hroot : IsAliased ⟨"msgraphsdk", moduleName⟩ :=
    ⟨⟨'m', "sgraphsdk".toList, rfl, by decide⟩, by decide⟩
  exact ⟨List.forall_mem_cons.2 ⟨.inl rfl, List.forall_mem_singleton.2 (.inr hroot)⟩,
    fun _ _ h => .inr (isAliased_configurationImports h),
    fun segments t => .inr (isAliased_model segments t),
    fun _ _ h => .inl (name_literalImports h), eq_of_writeImport⟩

end Go

namespace TypeScript

variable {i j : Import}

theorem blank_not_mem_className (t : TypeRef) : ' ' ∉ (Package.className t).toList := by
  rw [Package.className, Naming.pascal, String.toList_ofList]
  intro h
  exact absurd (Naming.isWordChar_of_mem_pascalChars h) (by decide)

/-- The name and the module of a line: what stands behind the first words of
the line, before and behind the words in its middle. -/
def pairOf (line : String) : String × String :=
  let start := "import \x7b ".toList
  let cs := line.toList
  let (name, module) :=
    partition " \x7d from ".toList (if start.isPrefixOf cs then cs.drop start.length else cs)
  (String.ofList name, String.ofList module)

/-- A module as a statement names it. -/
def moduleText (source : String) : String :=
  Text.asciiQuoted source ++ ";"

theorem moduleText_injective : Function.Injective moduleText := by
  intro a b h
  exact Quoted.asciiQuoted_injective (String.append_left_inj ";" |>.1 h)

/-- **A line is read as the import it is written for.** -/
theorem pairOf_importFrom {name source : String} (h : ' ' ∉ name.toList) :
    pairOf (importFrom [name] source) = (name, moduleText source) := by
  have hline : (importFrom [name] source).toList = "import \x7b ".toList ++
      (name.toList ++ ' ' :: ("\x7d from ".toList ++ (moduleText source).toList)) := by
    simp [importFrom, moduleText]
  have hstart : "import \x7b ".toList.isPrefixOf (importFrom [name] source).toList = true :=
    List.isPrefixOf_iff_prefix.2 ⟨_, hline.symm⟩
  have hmiddle : " \x7d from ".toList = ' ' :: "\x7d from ".toList := rfl
  simp only [pairOf, hstart, if_true]
  rw [hline, List.drop_left, hmiddle, partition_append h, String.ofList_toList,
    String.ofList_toList]

theorem eq_of_write (hi : ' ' ∉ i.name.toList) (hj : ' ' ∉ j.name.toList)
    (h : importFrom [i.name] i.source = importFrom [j.name] j.source) : i = j := by
  have hpair := congrArg pairOf h
  rw [pairOf_importFrom hi, pairOf_importFrom hj] at hpair
  obtain ⟨hname, hsource⟩ := Prod.mk.inj hpair
  obtain ⟨name, source⟩ := i
  obtain ⟨name', source'⟩ := j
  obtain rfl : name = name' := hname
  obtain rfl : source = source' := moduleText_injective hsource
  rfl

theorem distinguishes {s : ImportStyle} (hs : language.imports = some s) :
    s.Distinguishes fun i => ' ' ∉ i.name.toList := by
  obtain rfl := Option.some.inj hs
  exact ⟨nofun, fun _ => nofun, fun _ => blank_not_mem_className, fun _ => nofun, eq_of_write⟩

/-! ## Statements -/

/-- A statement with names from one module. -/
def statementText (statement : List String × String) : String :=
  "import \x7b " ++ String.intercalate ", " statement.1 ++ " \x7d from " ++ statement.2

/-- Statements have what lines have: one statement for each module, with names
that ascend, and a name from a module exactly where there is a line for it. -/
structure Merges (lines : List String) (statements : List (List String × String)) : Prop where
  modules : (statements.map Prod.snd).Nodup
  names : ∀ statement ∈ statements, statement.1.Pairwise (· < ·)
  pairs : ∀ name module, (∃ names, (names, module) ∈ statements ∧ name ∈ names) ↔
    (name, module) ∈ lines.map pairOf

/-- The statements for imports. -/
def statements (imports : List Import) : List (List String × String) :=
  (imports.map (·.source)).eraseDups.map fun source =>
    (namesFrom imports source, moduleText source)

theorem layout_eq (imports : List Import) :
    layout imports = (statements imports).map statementText := by
  have htext : ∀ names source, importFrom names source =
      statementText (names, moduleText source) := by
    intro names source
    simp [importFrom, statementText, moduleText, String.append_assoc]
  simp only [layout, statements, List.map_map, Function.comp_def, htext]

theorem mem_namesFrom {imports : List Import} {name source : String} :
    name ∈ namesFrom imports source ↔ ⟨name, source⟩ ∈ imports := by
  simp only [namesFrom, List.mem_mergeSort, List.mem_eraseDups, List.mem_map, List.mem_filter,
    beq_iff_eq]
  constructor
  · rintro ⟨⟨_, _⟩, ⟨hi, rfl⟩, rfl⟩
    exact hi
  · intro hi
    exact ⟨_, ⟨hi, rfl⟩, rfl⟩

/-- **The statements for imports merge their lines.** -/
theorem merges_statements {imports : List Import} (h : ∀ i ∈ imports, ' ' ∉ i.name.toList) :
    Merges (imports.map fun i => importFrom [i.name] i.source) (statements imports) where
  modules := by
    have hmodules : (statements imports).map Prod.snd =
        (imports.map (·.source)).eraseDups.map moduleText := by
      simp [statements]
    rw [hmodules]
    exact List.Nodup.map moduleText_injective (nodup_eraseDups _)
  names := by
    intro statement hstatement
    obtain ⟨source, -, rfl⟩ := List.mem_map.1 hstatement
    exact @ascending_mergeSort _ id _ (nodup_eraseDups _) fun _ _ _ _ => id
  pairs name module := by
    -- a line of one name reads back as that name with its module
    have hread : ∀ i ∈ imports,
        pairOf (importFrom [i.name] i.source) = (i.name, moduleText i.source) :=
      fun i hi => pairOf_importFrom (h i hi)
    constructor
    · rintro ⟨names, hstatement, hname⟩
      obtain ⟨source, -, hsource⟩ := List.mem_map.1 hstatement
      obtain ⟨rfl, rfl⟩ := Prod.mk.inj hsource
      have hi := mem_namesFrom.1 hname
      rw [List.map_map]
      exact List.mem_map.2 ⟨_, hi, hread _ hi⟩
    · intro hpair
      rw [List.map_map] at hpair
      obtain ⟨i, hi, hpair⟩ := List.mem_map.1 hpair
      obtain ⟨rfl, rfl⟩ := Prod.mk.inj ((hread i hi).symm.trans hpair)
      have hsource : i.source ∈ (imports.map (·.source)).eraseDups :=
        List.mem_eraseDups.2 (List.mem_map_of_mem hi)
      exact ⟨_, List.mem_map_of_mem hsource, mem_namesFrom.2 hi⟩

end TypeScript

/-! ## All languages -/

namespace Imports

variable {s : ImportStyle} {l : Language} {r : ResolvedRequest} {body : Option BodyGraph}

/-- The imports that the text of a snippet adds to those of its body. -/
def recovered (s : ImportStyle) (r : ResolvedRequest) (body : Option BodyGraph)
    (text : Option String) : Outcome (List Import) :=
  match text with
  | some t => ofText s r body t
  | none => .ok []

/-- The imports of the configuration, where the request has one. -/
def ofConfiguration (s : ImportStyle) (r : ResolvedRequest) : List Import :=
  if r.hasConfiguration then s.configuration r else []

/-- The imports of a body and those that are recovered. -/
def ofModels (s : ImportStyle) (r : ResolvedRequest) (body : Option BodyGraph)
    (recovered : List Import) : List Import :=
  (body.map (ofBody s r)).getD [] ++ recovered

theorem resolve_eq (hs : l.imports = some s) (text : Option String) :
    resolve r l body text = (recovered s r body text).map fun more =>
      s.layout (ordered s [] [s.root, ofConfiguration s r, ofModels s r body more]) := by
  unfold resolve
  rw [hs]
  cases text with
  | none => rfl
  | some t =>
    simp only [recovered]
    cases ofText s r body t <;> rfl

/-- The imports that a text adds are imports of types. -/
theorem exists_model_of_recovered {text : Option String} {more : List Import}
    (h : recovered s r body text = .ok more) :
    ∀ i ∈ more, ∃ t, s.model r.segments t = i := by
  cases text with
  | none =>
    obtain rfl := Except.ok.inj h
    exact nofun
  | some t =>
    obtain ⟨types, -, htypes⟩ := Outcome.bind_eq_ok.1 h
    obtain rfl := Outcome.pure_eq_ok.1 htypes
    intro i hi
    obtain ⟨t, -, rfl⟩ := List.mem_map.1 hi
    exact ⟨t, rfl⟩

theorem forall_mem_ofModels {P : Import → Prop} (hs : s.Distinguishes P) {text : Option String}
    {more : List Import} (h : recovered s r body text = .ok more) :
    ∀ i ∈ ofModels s r body more, P i := by
  refine List.forall_mem_append.2 ⟨?_, fun i hi => ?_⟩
  · cases body with
    | none => exact nofun
    | some g =>
      refine List.forall_mem_append.2 ⟨fun i hi => ?_, fun i hi => ?_⟩
      · obtain ⟨t, -, rfl⟩ := List.mem_map.1 hi
        exact hs.model r.segments t
      · obtain ⟨n, -, hi⟩ := List.mem_flatMap.1 hi
        exact hs.literal n i hi
  · obtain ⟨t, rfl⟩ := exists_model_of_recovered h i hi
    exact hs.model r.segments t

/-- Every language tells its imports apart. -/
theorem exists_distinguishes (hl : l ∈ Language.all) (hs : l.imports = some s) :
    ∃ P, s.Distinguishes P := by
  simp only [Language.all, List.mem_cons, List.not_mem_nil, or_false] at hl
  rcases hl with rfl | rfl | rfl | rfl | rfl | rfl | rfl
  · exact ⟨_, CSharp.distinguishes hs⟩
  · cases hs
  · exact ⟨_, Python.distinguishes hs⟩
  · exact ⟨_, Go.distinguishes hs⟩
  · exact ⟨_, TypeScript.distinguishes hs⟩
  · exact ⟨_, Php.distinguishes hs⟩
  · cases hs

/-- The imports of a request are in order, and told apart. -/
theorem exists_imports_in_order (hl : l ∈ Language.all) (hs : l.imports = some s)
    {text : Option String} {formatted : List String} (h : resolve r l body text = .ok formatted) :
    ∃ imports more, recovered s r body text = .ok more ∧ formatted = s.layout imports ∧
      InOrder (s.root.map s.write) ((ofConfiguration s r).map s.write)
        ((ofModels s r body more).map s.write) (imports.map s.write) ∧
      ∀ P, s.Distinguishes P → ∀ i ∈ imports, P i := by
  rw [resolve_eq hs] at h
  cases hmore : recovered s r body text with
  | error e => rw [hmore] at h; cases h
  | ok more =>
    rw [hmore] at h
    obtain rfl := Except.ok.inj h
    have hconfiguration : ∀ {P}, s.Distinguishes P → ∀ i ∈ ofConfiguration s r, P i := by
      intro P hP i hi
      unfold ofConfiguration at hi
      split at hi
      · exact hP.configuration r i hi
      · cases hi
    obtain ⟨P, hP⟩ := exists_distinguishes hl hs
    refine ⟨_, more, rfl, rfl, inOrder_ordered hP hP.root (hconfiguration hP)
      (forall_mem_ofModels hP hmore), fun Q hQ i hi => ?_⟩
    obtain ⟨group, hgroup, hi⟩ := (mem_ordered.1 hi).resolve_left List.not_mem_nil
    simp only [List.mem_cons, List.not_mem_nil, or_false] at hgroup
    rcases hgroup with rfl | rfl | rfl
    · exact hQ.root i hi
    · exact hconfiguration hQ i hi
    · exact forall_mem_ofModels hQ hmore i hi

/-- **The lines of imports are complete, in order and without repetition.** A
language without imports has none. For any other one the imports have the
lines of three groups, each line once: those of the language, then those of the
configuration that are not given yet, then those of the models, ascending in
each part; these lines are what is laid out. In TypeScript that merges them to
one statement for each module. -/
theorem resolve_in_order (hl : l ∈ Language.all) (r : ResolvedRequest) (body : Option BodyGraph) :
    (l.imports = none → ∀ text, resolve r l body text = .ok []) ∧
    ∀ s, l.imports = some s →
      (∃ formatted, resolve r l body none = .ok formatted) ∧
      ∀ text formatted, resolve r l body text = .ok formatted →
        ∃ imports more, recovered s r body text = .ok more ∧ formatted = s.layout imports ∧
          InOrder (s.root.map s.write) ((ofConfiguration s r).map s.write)
            ((ofModels s r body more).map s.write) (imports.map s.write) ∧
          (imports.map s.write).Nodup ∧
          (l = TypeScript.language → ∃ statements,
            formatted = statements.map TypeScript.statementText ∧
              TypeScript.Merges (imports.map s.write) statements) := by
  refine ⟨fun hnone text => ?_, fun s hs => ⟨exists_resolve_none r l body, ?_⟩⟩
  · rw [resolve, hnone]
  · intro text formatted h
    obtain ⟨imports, more, hmore, rfl, horder, hall⟩ := exists_imports_in_order hl hs h
    refine ⟨imports, more, hmore, rfl, horder, horder.nodup, ?_⟩
    rintro rfl
    have hnames := hall _ (TypeScript.distinguishes hs)
    obtain rfl := Option.some.inj hs
    exact ⟨TypeScript.statements imports, TypeScript.layout_eq imports,
      TypeScript.merges_statements hnames⟩

theorem resolve_in_order_part :
    TypeScript.language ∈ Language.all ∧ ∃ formatted lines statements,
      resolve partRequest TypeScript.language (some (partBody (TypeRef.ofName "ns.part"))) none =
          .ok formatted ∧
        InOrder [] [] ["import \x7b Thing \x7d from \"@microsoft/msgraph-sdk/models/ns\";",
          "import \x7b Part \x7d from \"@microsoft/msgraph-sdk/models/ns\";"] lines ∧
        lines.Nodup ∧ formatted = statements.map TypeScript.statementText ∧
        TypeScript.Merges lines statements := by
  have hl : TypeScript.language ∈ Language.all := by simp [Language.all]
  obtain ⟨⟨formatted, h⟩, hall⟩ := (resolve_in_order hl partRequest
    (some (partBody (TypeRef.ofName "ns.part")))).2 _ rfl
  obtain ⟨imports, more, hmore, -, horder, hnodup, hmerges⟩ := hall none formatted h
  obtain rfl := Except.ok.inj hmore
  obtain ⟨statements, hformatted, hmerges⟩ := hmerges rfl
  exact ⟨hl, formatted, _, statements, h, horder, hnodup, hformatted, hmerges⟩

end Imports

end ApiSnippets
