import Mathlib.Data.List.Infix
import Mathlib.Logic.Relation
import ApiSnippets.Proofs.Text.Nesting
import ApiSnippets.Request.Path
/-!
# Segments and paths

The segments of a path are canonical: none is empty, none is cut any further,
and all but the last end outside of parentheses and quotes. On canonical
segments, joining and splitting are inverse (`segments_ofSegments`), and
slashes that separate nothing from something do not matter
(`segments_of_slashesAdded`).
-/

namespace ApiSnippets

namespace Path

open Text Text.Nesting

theorem isMark_slash : isMark '/' = false := rfl

/-! ## Splitting -/

/-- A slash outside splits a path in two. -/
theorem segmentsOf_append_slash {cs ds : List Char} (h : after true outside cs = outside) :
    segmentsOf (cs ++ '/' :: ds) = segmentsOf cs ++ segmentsOf ds := by
  unfold segmentsOf
  rw [cutOutside_append_sep isMark_slash h, List.filter_append]

theorem segmentsOf_nil : segmentsOf [] = [] := rfl

theorem segmentsOf_cons_slash {cs : List Char} : segmentsOf ('/' :: cs) = segmentsOf cs :=
  @segmentsOf_append_slash [] cs rfl

theorem segmentsOf_of_whole {cs : List Char} (h : Whole true '/' outside cs) (hne : cs ≠ []) :
    segmentsOf cs = [cs] := by
  unfold segmentsOf
  rw [cutOutside_of_whole h]
  simp [hne]

/-! ## Canonical segments -/

/-- A segment that is not empty and that no slash outside cuts. -/
def IsSegment (cs : List Char) : Prop :=
  cs ≠ [] ∧ Whole true '/' outside cs

/-- Segments of which all but the last end outside of parentheses and
quotes. -/
inductive Canonical : List (List Char) → Prop
  | nil : Canonical []
  | last {s : List Char} : IsSegment s → Canonical [s]
  | cons {s : List Char} {ss : List (List Char)} : IsSegment s → after true outside s = outside →
      Canonical ss → Canonical (s :: ss)

theorem Canonical.initial {ss ts : List (List Char)} (h : Canonical ts) (hp : ss <+: ts) :
    Canonical ss := by
  induction h generalizing ss with
  | nil =>
    rw [List.prefix_nil.1 hp]
    exact .nil
  | @last s hs =>
    rcases List.prefix_cons_iff.1 hp with rfl | ⟨ss', rfl, hp'⟩
    · exact .nil
    · rw [List.prefix_nil.1 hp']
      exact .last hs
  | @cons s ts hs hout _ ih =>
    rcases List.prefix_cons_iff.1 hp with rfl | ⟨ss', rfl, hp'⟩
    · exact .nil
    · exact .cons hs hout (ih hp')

theorem Canonical.isSegment_of_mem {ss : List (List Char)} (h : Canonical ss) {s : List Char}
    (hs : s ∈ ss) : IsSegment s := by
  induction h with
  | nil => simp at hs
  | last h =>
    rw [List.mem_singleton] at hs
    exact hs ▸ h
  | cons h _ _ ih =>
    rcases List.mem_cons.1 hs with rfl | hs
    · exact h
    · exact ih hs

/-- **The segments of a path are canonical.** The induction is on the length of
what is still to be cut. -/
theorem canonical_segmentsOf (cs : List Char) : Canonical (segmentsOf cs) := by
  induction hn : cs.length using Nat.strongRecOn generalizing cs with
  | _ n ih =>
    rcases whole_or_exists_append isMark_slash cs with hwhole | ⟨p, ds, rfl, hp, hout⟩
    · by_cases hne : cs = []
      · subst hne
        exact .nil
      · rw [segmentsOf_of_whole hwhole hne]
        exact .last ⟨hne, hwhole⟩
    · have hds : Canonical (segmentsOf ds) := by
        refine ih ds.length ?_ ds rfl
        rw [List.length_append, List.length_cons] at hn
        omega
      rw [segmentsOf_append_slash hout]
      -- a piece between two slashes with nothing in it is no segment
      by_cases hne : p = []
      · subst hne
        exact hds
      · rw [segmentsOf_of_whole hp hne]
        exact .cons ⟨hne, hp⟩ hout hds

/-- Canonical segments come back when they are joined with slashes and
split. -/
theorem segmentsOf_intercalate {ss : List (List Char)} (h : Canonical ss) :
    segmentsOf (List.intercalate ['/'] ss) = ss := by
  induction h with
  | nil => rfl
  | last hs => simpa using segmentsOf_of_whole hs.2 hs.1
  | @cons s ss hs hout _ ih =>
    cases ss with
    | nil => simpa using segmentsOf_of_whole hs.2 hs.1
    | cons t ts =>
      have hjoin : List.intercalate ['/'] (s :: t :: ts) =
          s ++ '/' :: List.intercalate ['/'] (t :: ts) := by
        simp [List.intercalate]
      rw [hjoin, segmentsOf_append_slash hout, segmentsOf_of_whole hs.2 hs.1, ih]
      rfl

/-! ## Paths as texts -/

/-- Texts that are canonical segments. -/
def CanonicalTexts (segs : List String) : Prop :=
  Canonical (segs.map String.toList)

theorem canonicalTexts_segments (path : String) : CanonicalTexts (segments path) := by
  unfold CanonicalTexts segments
  rw [List.map_map]
  have hid : String.toList ∘ String.ofList = id := by
    funext cs
    simp
  rw [hid, List.map_id]
  exact canonical_segmentsOf _

theorem CanonicalTexts.initial {segs more : List String} (h : CanonicalTexts more)
    (hp : segs <+: more) : CanonicalTexts segs :=
  Canonical.initial h (hp.map _)

theorem CanonicalTexts.ne_empty {segs : List String} (h : CanonicalTexts segs) {s : String}
    (hs : s ∈ segs) : s ≠ "" := by
  have hne := (h.isSegment_of_mem (List.mem_map_of_mem hs)).1
  rintro rfl
  exact hne rfl

theorem toList_ofSegments {segs : List String} :
    (ofSegments segs).toList = '/' :: List.intercalate ['/'] (segs.map String.toList) := by
  simp [ofSegments, String.toList_intercalate]

/-- **Splitting undoes joining** on canonical segments. -/
theorem segments_ofSegments {segs : List String} (h : CanonicalTexts segs) :
    segments (ofSegments segs) = segs := by
  unfold segments
  rw [toList_ofSegments, segmentsOf_cons_slash, segmentsOf_intercalate h, List.map_map]
  have hid : String.ofList ∘ String.toList = id := by
    funext s
    simp
  rw [hid, List.map_id]

theorem ofSegments_ne_slash {s : String} {segs : List String} (h : s ≠ "") :
    ofSegments (s :: segs) ≠ "/" := by
  intro hslash
  have hlist := congrArg String.toList hslash
  rw [toList_ofSegments] at hlist
  cases segs with
  | nil => simp_all
  | cons t ts => simp_all

/-- The path below the path of some segments has one segment more. -/
theorem below_ofSegments {segs : List String} {s : String} (h : ∀ t ∈ segs, t ≠ "") :
    below (ofSegments segs) s = ofSegments (segs ++ [s]) := by
  cases segs with
  | nil =>
    show "" ++ "/" ++ s = "/" ++ String.intercalate "/" [s]
    rw [String.intercalate_singleton, String.empty_append]
  | cons t ts =>
    have hne : ofSegments (t :: ts) ≠ "/" := ofSegments_ne_slash (h t List.mem_cons_self)
    unfold below
    rw [if_neg hne]
    unfold ofSegments
    rw [String.intercalate_append_of_ne_nil (by simp) (by simp), String.intercalate_singleton]
    simp [String.append_assoc]

/-- Going down segment by segment gives the path of all segments. -/
theorem foldl_below {segs more : List String} (h : ∀ s ∈ segs ++ more, s ≠ "") :
    more.foldl below (ofSegments segs) = ofSegments (segs ++ more) := by
  induction more generalizing segs with
  | nil => simp
  | cons s more ih =>
    have hsegs : ∀ t ∈ segs, t ≠ "" := fun t ht => h t (List.mem_append_left _ ht)
    rw [List.foldl_cons, below_ofSegments hsegs, ih, List.append_assoc, List.singleton_append]
    intro t ht
    refine h t ?_
    simpa using ht

/-! ## Slashes that do not matter -/

/-- A path with one more slash, outside of parentheses and quotes and at
either end or beside another slash. -/
def AddsSlash (path path' : String) : Prop :=
  ∃ cs ds, path.toList = cs ++ ds ∧ path'.toList = cs ++ '/' :: ds ∧
    after true outside cs = outside ∧
      (cs = [] ∨ ds = [] ∨ (∃ cs', cs = cs' ++ ['/']) ∨ ∃ ds', ds = '/' :: ds')

theorem segments_of_addsSlash {path path' : String} (h : AddsSlash path path') :
    segments path' = segments path := by
  obtain ⟨cs, ds, hpath, hpath', hout, hwhere⟩ := h
  unfold segments
  rw [hpath, hpath', segmentsOf_append_slash hout]
  rcases hwhere with rfl | rfl | ⟨cs', rfl⟩ | ⟨ds', rfl⟩
  · rfl
  · simp [segmentsOf_nil]
  · have hout' : after true outside cs' = outside := by
      rw [after_append] at hout
      simpa [step_of_not_isMark isMark_slash] using hout
    rw [List.append_assoc, List.singleton_append, segmentsOf_append_slash hout',
      segmentsOf_append_slash hout', segmentsOf_nil, List.append_nil]
  · rw [segmentsOf_append_slash hout, segmentsOf_cons_slash]

/-- **Paths that differ only in slashes that separate nothing** have the same
segments. -/
theorem segments_of_slashesAdded {path path' : String}
    (h : Relation.EqvGen AddsSlash path path') : segments path = segments path' := by
  induction h with
  | rel _ _ h => exact (segments_of_addsSlash h).symm
  | refl => rfl
  | symm _ _ _ ih => exact ih.symm
  | trans _ _ _ _ _ ih ih' => exact ih.trans ih'

end Path

end ApiSnippets
