import Mathlib.Data.List.Infix
import ApiSnippets.Proofs.Outcome
import ApiSnippets.Proofs.Request.Path
import ApiSnippets.Proofs.Text.Outside
import ApiSnippets.Resolution.Request
/-!
# Paths cut again

A slash separates two segments of a path where no parenthesis is open before
it, and a path is cut at exactly these slashes. Its segments are cut no
further, and joined they are cut as before, as often as one likes; so a list of
segments stands for a path, with or without a slash in front, and so does each
part of it (`segments_canonical`). Two lists put together stand for one path when
nothing is open behind the first of them, or when the second one is empty, and
in no other case (`segments_together_iff`).
-/

namespace ApiSnippets

namespace Path

open Text Text.Nesting

variable {cs ds : List Char}

/-! ## Slashes that separate -/

/-- Behind these characters no parenthesis is open. Inside of a parenthesis,
quotes hide others. -/
def AtTop (cs : List Char) : Prop :=
  (after true outside cs).depth = 0

instance (cs : List Char) : Decidable (AtTop cs) :=
  inferInstanceAs (Decidable (_ = _))

/-- A quote is opened inside of parentheses only, and hides what would close
them. -/
theorem depth_pos_step {n : Nesting} (c : Char) (hn : n.quoted = true → 0 < n.depth) :
    (n.step true c).quoted = true → 0 < (n.step true c).depth := by
  unfold step
  split
  · next hquote =>
    intro _
    simpa using hquote.2
  · split
    · exact hn
    · next hquoted =>
      -- outside of quotes the scanner stays there
      split
      · intro h
        exact absurd h hquoted
      · split
        · intro h
          exact absurd h hquoted
        · exact hn

theorem depth_pos_after (cs : List Char) {n : Nesting} (hn : n.quoted = true → 0 < n.depth) :
    (after true n cs).quoted = true → 0 < (after true n cs).depth := by
  induction cs generalizing n with
  | nil => exact hn
  | cons c cs ih => exact ih (depth_pos_step c hn)

/-- **No parenthesis is open** exactly where the scanner is outside of
everything. -/
theorem atTop_iff : AtTop cs ↔ after true outside cs = outside := by
  have hquoted := depth_pos_after cs (show outside.quoted = true → 0 < outside.depth by decide)
  unfold AtTop
  generalize after true outside cs = n at hquoted
  obtain ⟨depth, quoted⟩ := n
  constructor
  · rintro rfl
    have hclosed : quoted = false := by simpa using hquoted
    rw [hclosed, outside]
  · intro h
    rw [h]
    rfl

/-- Whether the character at a position of a path is a slash between two
segments. -/
def separates (cs : List Char) (i : Nat) : Bool :=
  cs[i]? == some '/' && decide (AtTop (cs.take i))

/-- A path without the slashes between its segments. -/
def withoutSeparators (cs : List Char) : List Char :=
  (cs.zipIdx.filter fun e => !separates cs e.2).map Prod.fst

/-! ## One cut -/

theorem flatten_prepend (c : Char) (pieces : List (List Char)) :
    (prepend c pieces).flatten = c :: pieces.flatten := by
  cases pieces <;> rfl

/-- What a cut leaves of a text that stands behind another one. The induction is
on what is still to be cut. -/
theorem flatten_cutOutside (before cs : List Char) :
    (cutOutside true '/' (after true outside before) cs).flatten =
      ((cs.zipIdx before.length).filter fun e => !separates (before ++ cs) e.2).map Prod.fst := by
  induction cs generalizing before with
  | nil => rfl
  | cons c cs ih =>
    have hrest := ih (before ++ [c])
    rw [after_append, after_cons, after_nil, List.length_append, List.length_singleton,
      List.append_assoc, List.singleton_append] at hrest
    have hseparates : separates (before ++ c :: cs) before.length = true ↔
        c = '/' ∧ (after true outside before).isOutside = true := by
      simp [separates, atTop_iff, isOutside_iff]
    rw [cutOutside, List.zipIdx_cons, List.filter_cons]
    by_cases hc : c = '/' ∧ (after true outside before).isOutside = true
    · obtain ⟨rfl, hout⟩ := hc
      -- a slash leaves the scanner where it is
      rw [step_of_not_isMark isMark_slash] at hrest
      rw [if_pos ⟨rfl, hout⟩, hseparates.2 ⟨rfl, hout⟩]
      exact hrest
    · have hkept : separates (before ++ c :: cs) before.length = false := by
        rw [← Bool.not_eq_true, hseparates]
        exact hc
      rw [if_neg hc, hkept, flatten_prepend, hrest]
      rfl

/-- **Segments put together** are the path without the slashes between them. -/
theorem flatten_segmentsOf (cs : List Char) :
    (segmentsOf cs).flatten = withoutSeparators cs := by
  unfold segmentsOf
  rw [List.flatten_filter_not_isEmpty]
  exact flatten_cutOutside [] cs

/-- A path is cut at the slashes before which no parenthesis is open. -/
theorem isCut_segments (cs : List Char) :
    IsCut AtTop '/' cs (cutOutside true '/' outside cs) :=
  isCut_of_after isMark_slash (fun _ => atTop_iff) cs

/-! ## Segments cut again -/

theorem segmentsOf_of_isSegment (h : IsSegment cs) : segmentsOf cs = [cs] :=
  segmentsOf_of_whole h.2 h.1

theorem Canonical.tail {t : List Char} {ss : List (List Char)} (h : Canonical (t :: ss)) :
    Canonical ss := by
  cases h with
  | last _ => exact .nil
  | cons _ _ h => exact h

/-- What is behind some of the segments is canonical as well. -/
theorem Canonical.rest {ss ts : List (List Char)} (h : Canonical (ss ++ ts)) : Canonical ts := by
  induction ss with
  | nil => exact h
  | cons s ss ih => exact ih h.tail

theorem CanonicalTexts.rest {xs ys : List String} (h : CanonicalTexts (xs ++ ys)) :
    CanonicalTexts ys := by
  unfold CanonicalTexts at h
  rw [List.map_append] at h
  exact Canonical.rest h

/-- A slash in front makes no difference. -/
theorem segments_intercalate {segs : List String} (h : CanonicalTexts segs) :
    segments (String.intercalate "/" segs) = segs := by
  have hslash : segments (ofSegments segs) = segments (String.intercalate "/" segs) := by
    unfold segments
    rw [toList_ofSegments, segmentsOf_cons_slash, String.toList_intercalate]
    rfl
  rw [← hslash, segments_ofSegments h]

/-! ## Two lists of segments -/

/-- **Nothing is open behind a path** exactly when nothing is open behind any of
its segments. The induction is on the length of what is still to be cut. -/
theorem atTop_iff_segmentsOf :
    AtTop cs ↔ ∀ s ∈ segmentsOf cs, after true outside s = outside := by
  rw [atTop_iff]
  induction hn : cs.length using Nat.strongRecOn generalizing cs with
  | _ n ih =>
    -- cut at the first slash outside of parentheses and quotes, if there is one
    rcases whole_or_exists_append (n := outside) isMark_slash cs with
      hwhole | ⟨p, ds, rfl, hp, hout⟩
    · by_cases hne : cs = []
      · subst hne
        simp [segmentsOf_nil]
      · rw [segmentsOf_of_whole hwhole hne]
        simp
    · have hlength : ds.length < n := by
        rw [List.length_append, List.length_cons] at hn
        omega
      have hfirst : ∀ s ∈ segmentsOf p, after true outside s = outside := by
        intro s hs
        by_cases hne : p = []
        · subst hne
          cases hs
        · rw [segmentsOf_of_whole hp hne, List.mem_singleton] at hs
          rw [hs]
          exact hout
      rw [segmentsOf_append_slash hout, List.forall_mem_append, after_append, hout, after_cons,
        step_of_not_isMark isMark_slash, ih ds.length hlength rfl]
      exact ⟨fun h => ⟨hfirst, h⟩, fun h => h.2⟩

/-- Segments behind which nothing is open may stand before any others. -/
theorem Canonical.append {ss ts : List (List Char)} (hs : Canonical ss) (ht : Canonical ts)
    (hout : ∀ s ∈ ss, after true outside s = outside) : Canonical (ss ++ ts) := by
  induction ss with
  | nil => exact ht
  | cons s ss ih =>
    rw [List.forall_mem_cons] at hout
    exact .cons (hs.isSegment_of_mem List.mem_cons_self) hout.1 (ih hs.tail hout.2)

/-- Segments that stand before others leave nothing open. -/
theorem Canonical.after_of_mem {ss ts : List (List Char)} (h : Canonical (ss ++ ts)) (hne : ts ≠ [])
    {s : List Char} (hs : s ∈ ss) : after true outside s = outside := by
  induction ss with
  | nil => cases hs
  | cons t ss ih =>
    rw [List.cons_append] at h
    have hrest := h.tail
    rcases List.mem_cons.1 hs with rfl | hs
    · generalize htail : ss ++ ts = tail at h
      cases h with
      | last _ => exact absurd (List.append_eq_nil_iff.1 htail).2 hne
      | cons _ hout _ => exact hout
    · exact ih hrest hs

theorem map_toList_segments (p : String) :
    (segments p).map String.toList = segmentsOf p.toList := by
  simp [segments, Function.comp_def]

/-- **When two lists of segments stand for one path**: when nothing is open
behind the first path, or there is nothing to put behind it. -/
theorem segments_together_iff {p q : String} :
    segments (ofSegments (segments p ++ segments q)) = segments p ++ segments q ↔
      AtTop p.toList ∨ segments q = [] := by
  have hp := canonical_segmentsOf p.toList
  have hq := canonical_segmentsOf q.toList
  constructor
  · intro h
    by_cases hempty : segments q = []
    · exact .inr hempty
    · -- as segments of a path, the two lists are canonical together
      have hboth := canonicalTexts_segments (ofSegments (segments p ++ segments q))
      rw [h, CanonicalTexts, List.map_append, map_toList_segments, map_toList_segments] at hboth
      have hne : segmentsOf q.toList ≠ [] := by
        rw [← map_toList_segments]
        simpa using hempty
      exact .inl (atTop_iff_segmentsOf.2 fun s hs => hboth.after_of_mem hne hs)
  · rintro (htop | hempty)
    · refine segments_ofSegments ?_
      rw [CanonicalTexts, List.map_append, map_toList_segments, map_toList_segments]
      exact hp.append hq (atTop_iff_segmentsOf.1 htop)
    · rw [hempty, List.append_nil]
      exact segments_ofSegments (canonicalTexts_segments p)

/-! ## The resolver -/

/-- The path of the resource is made of the segments behind the version, which
are its segments when it is cut again. -/
theorem segments_of_target {r : HttpRequest} {url : Url} {version path : String}
    (h : Resolution.target r = .ok (url, version, path)) :
    ∃ more, segments (String.ofList (percentDecode url.path.toList)) = version :: more ∧
      path = modernise (ofSegments more) ∧ segments (ofSegments more) = more := by
  obtain ⟨url', -, h⟩ := Outcome.bind_eq_ok.1 h
  split at h
  · next version' more hsegments =>
    have hsame := Outcome.pure_eq_ok.1 h
    obtain ⟨rfl, rfl, rfl⟩ : url' = url ∧ version' = version ∧
        modernise (ofSegments more) = path := by simpa using hsame
    have hcanonical := canonicalTexts_segments (String.ofList (percentDecode url'.path.toList))
    rw [hsegments, ← List.singleton_append] at hcanonical
    exact ⟨more, hsegments, rfl, segments_ofSegments hcanonical.rest⟩
  · cases h

/-- **Cutting a path is canonical.** It is cut at the slashes before which no
parenthesis is open, and the segments are the pieces that are not empty: put
together they are the path without these slashes, and each is a path of one
segment. Joined with slashes, with one in front or without, they are the
segments again, and so is every part of the list that begins or ends with it; so
is the list without the version, from which the path of a resource is made. Two
such lists are cut apart again as they were put together exactly when nothing is
open behind the first one or the second one is empty. -/
theorem segments_canonical (p : String) :
    (∃ pieces, IsCut AtTop '/' p.toList pieces ∧
      segments p = (pieces.filter fun s => !s.isEmpty).map String.ofList) ∧
    String.join (segments p) = String.ofList (withoutSeparators p.toList) ∧
    (∀ s ∈ segments p, s ≠ "" ∧ segments s = [s]) ∧
    segments (String.intercalate "/" (segments p)) = segments p ∧
    segments (ofSegments (segments p)) = segments p ∧
    (∀ xs ys, segments p = xs ++ ys →
      segments (ofSegments xs) = xs ∧ segments (ofSegments ys) = ys) ∧
    (∀ q, segments (ofSegments (segments p ++ segments q)) =
        segments (ofSegments (segments p)) ++ segments (ofSegments (segments q)) ↔
      AtTop p.toList ∨ segments q = []) ∧
    ∀ r url version path, Resolution.target r = .ok (url, version, path) →
      ∃ more, segments (String.ofList (percentDecode url.path.toList)) = version :: more ∧
        path = modernise (ofSegments more) ∧ segments (ofSegments more) = more := by
  have hcanonical := canonicalTexts_segments p
  have hagain (q : String) := segments_ofSegments (canonicalTexts_segments q)
  refine ⟨⟨_, isCut_segments p.toList, rfl⟩, ?_, ?_, segments_intercalate hcanonical, hagain p,
    ?_, ?_, fun r url version path h => segments_of_target h⟩
  · rw [← flatten_segmentsOf, ← map_toList_segments, ← String.toList_inj, String.toList_join,
      String.toList_ofList, List.flatMap_def]
  · intro s hs
    refine ⟨hcanonical.ne_empty hs, ?_⟩
    have hsegment : IsSegment s.toList :=
      hcanonical.isSegment_of_mem (List.mem_map_of_mem hs)
    rw [segments, segmentsOf_of_isSegment hsegment]
    simp
  · intro xs ys hparts
    rw [hparts] at hcanonical
    exact ⟨segments_ofSegments (hcanonical.initial (List.prefix_append xs ys)),
      segments_ofSegments hcanonical.rest⟩
  · intro q
    rw [hagain p, hagain q]
    exact segments_together_iff

/-- A path with slashes that separate nothing, a stray quote, marks inside of an
argument and a parenthesis that is never closed. -/
def openPath : String :=
  "/v1.0//it's/f(a='(/')/x(y/z"

/-- A request for that path, partly encoded. -/
def openRequest : HttpRequest where
  method := .get
  url := "https://graph.microsoft.com/v1.0//it's/f(a='(%2F')/x(y/z"

theorem segments_openPath : segments openPath = ["v1.0", "it's", "f(a='(/')", "x(y/z"] := by
  decide

theorem decoded_openRequest :
    String.ofList (Text.percentDecode "/v1.0//it's/f(a='(%2F')/x(y/z".toList) = openPath := by
  decide

theorem target_openRequest : Resolution.target openRequest =
    .ok (⟨"/v1.0//it's/f(a='(%2F')/x(y/z", ""⟩, "v1.0", "/it's/f(a='(/')/x(y/z") := by
  have hparsed : Url.parse (Text.stripped openRequest.url) =
      .ok ⟨"/v1.0//it's/f(a='(%2F')/x(y/z", ""⟩ := rfl
  refine Outcome.bind_eq_ok.2 ⟨_, hparsed, ?_⟩
  rw [decoded_openRequest, segments_openPath]
  rfl

theorem segments_canonical_open :
    segments openPath = ["v1.0", "it's", "f(a='(/')", "x(y/z"] ∧
    segments "x(y/z" = ["x(y/z"] ∧
    (∃ url more, Resolution.target openRequest = .ok (url, "v1.0", ofSegments more) ∧
      more = ["it's", "f(a='(/')", "x(y/z"] ∧ segments (ofSegments more) = more) ∧
    segments (ofSegments (segments openPath ++ ["a"])) ≠ segments openPath ++ ["a"] := by
  obtain ⟨-, -, hone, -, hagain, hparts, htogether, htarget⟩ := segments_canonical openPath
  refine ⟨segments_openPath, (hone "x(y/z" (by rw [segments_openPath]; decide)).2, ?_,
    fun h => ?_⟩
  · obtain ⟨more, hmore, -, hcut⟩ := htarget _ _ _ _ target_openRequest
    rw [decoded_openRequest, segments_openPath] at hmore
    obtain ⟨-, rfl⟩ := List.cons.inj hmore
    exact ⟨_, _, target_openRequest, rfl, hcut⟩
  · -- the parenthesis stays open
    have hnext : segments "a" = ["a"] := by decide
    have hjoined := htogether "a"
    rw [hagain, hnext, show segments (ofSegments ["a"]) = ["a"] by decide] at hjoined
    rcases hjoined.1 h with htop | hnone
    · exact absurd htop (by decide)
    · cases hnone

end Path

end ApiSnippets
