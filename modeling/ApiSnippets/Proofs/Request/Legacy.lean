import ApiSnippets.Proofs.Text.Case
import ApiSnippets.Proofs.Text.Cut
import ApiSnippets.Request.Legacy
/-!
# What becomes of a legacy path

A legacy beginning is said here as a set of texts, apart from the functions
that look for it: an owner, a fixed word in any letter case and, for an item
that is addressed by its file path, that path between colons (`Beginning`).
A path is replaced as far as the first beginning of the table that ends where
a segment of the path ends, and keeps the rest (`modernise_keeps_rest`). An
owner and a word are read off the path in one way, so a beginning that ends
inside a segment is none, and a path that was replaced has no legacy beginning
any more.
-/

namespace ApiSnippets

namespace Path

variable {c w : Char} {cs ws vs q r s owner : List Char} {p : String}

/-! ## Letters in any case -/

/-- The lower case of a character as a letter of a word. The dotted and the
dotless `i` count as the letter, and so does the long `s`. -/
def letterOf (c : Char) : List Char :=
  if c = 'ı' ∨ c = 'İ' then ['i'] else if c = 'ſ' then ['s'] else Text.lowerChar c

/-- A character of ASCII that is its own lower case. -/
def IsLower (w : Char) : Prop :=
  w.toNat < 128 ∧ Text.lowerChar w = [w]

instance : DecidablePred IsLower :=
  fun w => inferInstanceAs (Decidable (w.toNat < 128 ∧ Text.lowerChar w = [w]))

theorem isLetterForm_cases : isLetterForm w c = true ↔
    c = w ∨ Text.lowerChar c = [w] ∨ (w = 'i' ∧ (c = 'ı' ∨ c = 'İ')) ∨ w = 's' ∧ c = 'ſ' := by
  simp only [isLetterForm, Bool.or_eq_true, Bool.and_eq_true, beq_iff_eq, or_assoc]

/-- **A character is a form of one letter at most.** -/
theorem isLetterForm_iff (hw : IsLower w) : isLetterForm w c = true ↔ letterOf c = [w] := by
  obtain ⟨hascii, hlower⟩ := hw
  -- a character beyond ASCII whose lower case is not in ASCII either
  have hbeyond : ∀ {d : Char} {ds : List Char}, ¬ d.toNat < 128 → Text.lowerChar d = ds →
      ds ≠ [w] → ¬ (d = w ∨ Text.lowerChar d = [w]) := by
    rintro d ds hd rfl hds (rfl | h)
    · exact hd hascii
    · exact hds h
  have hne : ∀ {d : Char} {ds : List Char}, ¬ d.toNat < 128 → d :: ds ≠ [w] := by
    intro d ds hd h
    obtain ⟨rfl, -⟩ := List.cons.inj h
    exact hd hascii
  rw [isLetterForm_cases, ← or_assoc, letterOf]
  split
  · next hdotted =>
    have hlong : c ≠ 'ſ' := by rintro rfl; revert hdotted; decide
    have hown : ¬ (c = w ∨ Text.lowerChar c = [w]) := by
      rcases hdotted with rfl | rfl
      · exact hbeyond (by decide) (by decide +kernel : _ = ['ı']) (hne (by decide))
      · exact hbeyond (by decide) (by decide +kernel : _ = ['i', Char.ofNat 0x307]) (by simp)
    simp only [hown, hdotted, hlong, and_true, and_false, or_false, false_or, List.singleton_inj]
    exact eq_comm
  · next hdotted =>
    split
    · next hlong =>
      subst hlong
      have hown : ¬ ('ſ' = w ∨ Text.lowerChar 'ſ' = [w]) :=
        hbeyond (by decide) (by decide +kernel : _ = ['ſ']) (hne (by decide))
      simp only [hown, hdotted, and_true, and_false, false_or, List.singleton_inj]
      exact eq_comm
    · next hlong =>
      have hself : c = w → Text.lowerChar c = [w] := by
        rintro rfl
        exact hlower
      simp only [hdotted, hlong, and_false, or_false]
      exact or_iff_right_of_imp hself

/-- Within ASCII a form of a letter is the letter in either case. -/
theorem isLetterForm_of_ascii (hc : c.toNat < 128) (hw : IsLower w) :
    isLetterForm w c = true ↔ c.toLower = w := by
  have hplain : ¬ (c = 'ı' ∨ c = 'İ') ∧ c ≠ 'ſ' := by
    refine ⟨?_, ?_⟩
    · rintro (rfl | rfl) <;> exact absurd hc (by decide)
    · rintro rfl
      exact absurd hc (by decide)
  rw [isLetterForm_iff hw, letterOf, if_neg hplain.1, if_neg hplain.2, Text.lowerChar_of_ascii hc,
    List.singleton_inj]

/-- A character without letter case is the only form of itself. -/
theorem isLetterForm_of_isCaseless (hw : Text.isCaseless w = true) :
    isLetterForm w c = true ↔ c = w := by
  obtain ⟨⟨-, hascii⟩, hletter⟩ := Text.isCaseless_iff.1 hw
  obtain ⟨hlower, -, -, hsame⟩ := Text.toLower_of_ascii hascii
  constructor
  · intro h
    have hletters : w ≠ 'i' ∧ w ≠ 's' := by
      refine ⟨?_, ?_⟩ <;> rintro rfl <;> exact absurd hletter (by decide)
    have hforms : c = w ∨ Text.lowerChar c = [w] := by
      simpa [isLetterForm, hletters.1, hletters.2] using h
    rcases hforms with h | h
    · exact h
    · by_cases hsigma : c = 'Σ'
      · subst hsigma
        have hown : Text.lowerChar 'Σ' = ['σ'] := by decide +kernel
        obtain rfl := List.singleton_inj.1 (hown.symm.trans h)
        exact absurd hascii (by decide)
      · have hmem : [w] ∈ Text.lowerForms c := by
          rw [Text.lowerForms, if_neg hsigma, h, List.mem_singleton]
        exact (Text.eq_of_mem_lowerForms hmem List.mem_cons_self hw).1
  · rintro rfl
    simp [isLetterForm]

/-! ## Words -/

/-- Characters that are a word written in lower case, in any letter case. -/
def IsForm (ws cs : List Char) : Prop :=
  List.Forall₂ (fun w c => isLetterForm w c = true) ws cs

theorem IsForm.map_letterOf (h : IsForm ws cs) (hws : ∀ w ∈ ws, IsLower w) :
    cs.map letterOf = ws.map fun w => [w] := by
  induction h with
  | nil => rfl
  | cons hc _ ih =>
    obtain ⟨hw, hws⟩ := List.forall_mem_cons.1 hws
    rw [List.map_cons, List.map_cons, (isLetterForm_iff hw).1 hc, ih hws]

/-- Within ASCII the forms of a word are the texts with that lower case. -/
theorem isForm_iff_of_ascii (hws : ∀ w ∈ ws, IsLower w) (hcs : ∀ c ∈ cs, c.toNat < 128) :
    IsForm ws cs ↔ cs.map Char.toLower = ws := by
  induction cs generalizing ws with
  | nil =>
    cases ws with
    | nil => exact iff_of_true .nil rfl
    | cons w ws => exact iff_of_false nofun nofun
  | cons c cs ih =>
    obtain ⟨hc, hcs⟩ := List.forall_mem_cons.1 hcs
    cases ws with
    | nil => exact iff_of_false nofun nofun
    | cons w ws =>
      obtain ⟨hw, hws⟩ := List.forall_mem_cons.1 hws
      rw [IsForm, List.forall₂_cons, isLetterForm_of_ascii hc hw, List.map_cons, List.cons.injEq]
      exact and_congr_right fun _ => ih hws hcs

/-- **What follows a word follows one form of it.** -/
theorem afterForm?_eq_some : afterForm? ws cs = some r ↔ ∃ q, IsForm ws q ∧ cs = q ++ r := by
  induction ws generalizing cs with
  | nil =>
    constructor
    · rintro ⟨⟩
      exact ⟨[], .nil, rfl⟩
    · rintro ⟨_, ⟨⟩, rfl⟩
      rfl
  | cons w ws ih =>
    cases cs with
    | nil =>
      constructor
      · rintro ⟨⟩
      · rintro ⟨_, ⟨⟩, hcs⟩
        cases hcs
    | cons c cs =>
      have hcons : (∃ q, IsForm (w :: ws) q ∧ c :: cs = q ++ r) ↔
          isLetterForm w c = true ∧ ∃ q, IsForm ws q ∧ cs = q ++ r := by
        constructor
        · rintro ⟨_, ⟨⟩ | ⟨hc, hq⟩, hcs⟩
          obtain ⟨rfl, rfl⟩ := List.cons.inj hcs
          exact ⟨hc, _, hq, rfl⟩
        · rintro ⟨hc, q, hq, rfl⟩
          exact ⟨c :: q, .cons hc hq, rfl⟩
      rw [hcons, ← ih, afterForm?]
      split <;> simp_all

theorem afterForm?_eq_nil : afterForm? ws cs = some [] ↔ IsForm ws cs := by
  simp [afterForm?_eq_some]

instance : Decidable (IsForm ws cs) :=
  decidable_of_iff _ afterForm?_eq_nil

theorem afterForm?_append : afterForm? (ws ++ vs) cs = (afterForm? ws cs).bind (afterForm? vs) := by
  induction ws generalizing cs with
  | nil => rfl
  | cons w ws ih =>
    cases cs with
    | nil => rfl
    | cons c cs =>
      rw [List.cons_append, afterForm?, afterForm?, ih]
      split <;> rfl

/-! ## Owners -/

/-- The owner of a drive: the signed-in user, or a user by name. -/
inductive IsOwner : List Char → Prop
  | me {q : List Char} : IsForm "/me".toList q → IsOwner q
  | user {q name : List Char} : IsForm "/users/".toList q → name ≠ [] → '/' ∉ name →
      IsOwner (q ++ name)

/-- **What follows the owner in a path** that goes on with a segment. -/
theorem afterOwner?_eq_some :
    afterOwner? cs = some ('/' :: r) ↔ ∃ owner, IsOwner owner ∧ cs = owner ++ '/' :: r := by
  constructor
  · intro h
    unfold afterOwner? at h
    split at h
    · next rest hrest =>
      obtain ⟨q, hq, rfl⟩ := afterForm?_eq_some.1 hrest
      split at h
      · cases h
      · next hname =>
        have hdrop := Option.some.inj h
        refine ⟨q ++ rest.takeWhile (· != '/'), .user hq (by simpa using hname) fun hmem => ?_, ?_⟩
        · simpa using List.mem_takeWhile_imp hmem
        · rw [List.append_assoc, ← hdrop, List.takeWhile_append_dropWhile]
    · obtain ⟨q, hq, rfl⟩ := afterForm?_eq_some.1 h
      exact ⟨q, .me hq, rfl⟩
  · rintro ⟨_, hq | @⟨q, name, hq, hname, hslash⟩, rfl⟩
    · -- the second letter tells the signed-in user from a user by name
      rename_i q
      have hnone : afterForm? "/users/".toList (q ++ '/' :: r) = none := by
        rw [Option.eq_none_iff_forall_ne_some]
        intro rest hrest
        obtain ⟨q', hq', hcs⟩ := afterForm?_eq_some.1 hrest
        have hme := hq.map_letterOf (Text.forall_of_all (by decide +kernel))
        have husers := hq'.map_letterOf (Text.forall_of_all (by decide +kernel))
        have hmap := congrArg (List.map letterOf) hcs
        rw [List.map_append, List.map_append, hme, husers] at hmap
        simp at hmap
      unfold afterOwner?
      rw [hnone]
      exact afterForm?_eq_some.2 ⟨q, hq, rfl⟩
    · have husers : afterForm? "/users/".toList (q ++ name ++ '/' :: r) = some (name ++ '/' :: r) :=
        afterForm?_eq_some.2 ⟨q, hq, List.append_assoc ..⟩
      have hrun : ∀ d ∈ name, (d != '/') = true := fun d hd =>
        bne_iff_ne.2 fun hslash' => hslash (hslash' ▸ hd)
      unfold afterOwner?
      rw [husers]
      simp only [Text.takeWhile_run hrun (bne_self_eq_false '/'),
        Text.dropWhile_run hrun (bne_self_eq_false '/')]
      simpa using hname

/-! ## Beginnings -/

/-- A legacy beginning: what follows its owner, and what replaces all of it. -/
structure Beginning where
  /-- The word after the owner, in lower case. -/
  word : String
  /-- What may stand behind the word. -/
  tail : List Char → Prop
  replacement : String

/-- The texts that a beginning describes. -/
def Beginning.Describes (b : Beginning) (q : List Char) : Prop :=
  ∃ owner w t, IsOwner owner ∧ IsForm b.word.toList w ∧ b.tail t ∧ q = owner ++ (w ++ t)

/-- A segment ends in front of these characters. -/
def EndsSegment (s : List Char) : Prop :=
  s = [] ∨ ∃ t, s = '/' :: t

/-- The characters begin with what a beginning describes, and that ends where
a segment ends, in front of the rest. -/
def Beginning.Leaves (b : Beginning) (cs s : List Char) : Prop :=
  ∃ q, b.Describes q ∧ EndsSegment s ∧ cs = q ++ s

/-- A file path between colons, from its root. -/
def IsFilePath (t : List Char) : Prop :=
  ∃ file, ':' ∉ file ∧ t = ":/".toList ++ (file ++ [':'])

/-- An item addressed by its file path. -/
def itemByPath : Beginning :=
  ⟨"/drive/root", IsFilePath, "/drives/\x7bdrive-id\x7d/items/\x7bdriveItem-id\x7d"⟩

/-- The root of a drive. -/
def driveRoot : Beginning :=
  ⟨"/drive/root", (· = []), "/drives/\x7bdrive-id\x7d/items/root"⟩

/-- The items of a drive. -/
def driveItems : Beginning :=
  ⟨"/drive/items", (· = []), "/drives/\x7bdrive-id\x7d/items"⟩

/-- The legacy beginnings in the order in which they are looked for. -/
def beginnings : List Beginning :=
  [itemByPath, driveRoot, driveItems]

theorem atBoundary?_eq_some (h : '\n' ∉ cs) : atBoundary? cs = some r ↔ cs = r ∧ EndsSegment r := by
  have hends : atSegmentEnd cs = true ↔ EndsSegment cs := by
    unfold atSegmentEnd
    split
    · simp [EndsSegment]
    · simp at h
    · simp [EndsSegment]
  rw [atBoundary?, Option.ite_none_right_eq_some, hends, Option.some.injEq]
  exact ⟨fun ⟨hs, hr⟩ => ⟨hr, hr ▸ hs⟩, fun ⟨hr, hs⟩ => ⟨hr ▸ hs, hr⟩⟩

/-- **An owner and a word are read off a path** in one way. -/
theorem afterWord_iff (hword : ws.head? = some '/') :
    (afterOwner? cs).bind (afterForm? ws) = some r ↔
      ∃ owner w, IsOwner owner ∧ IsForm ws w ∧ cs = owner ++ (w ++ r) := by
  obtain ⟨more, rfl⟩ : ∃ more, ws = '/' :: more := by
    cases ws <;> simp_all
  rw [Option.bind_eq_some_iff]
  constructor
  · rintro ⟨rest, howner, hrest⟩
    obtain ⟨w, hw, rfl⟩ := afterForm?_eq_some.1 hrest
    cases hw with
    | cons hslash hmore =>
      obtain rfl := (isLetterForm_of_isCaseless (by decide)).1 hslash
      obtain ⟨owner, hq, rfl⟩ := afterOwner?_eq_some.1 howner
      exact ⟨owner, _, hq, .cons hslash hmore, rfl⟩
  · rintro ⟨owner, w, howner, hw, rfl⟩
    refine ⟨w ++ r, ?_, afterForm?_eq_some.2 ⟨w, hw, rfl⟩⟩
    cases hw with
    | cons hslash hmore =>
      obtain rfl := (isLetterForm_of_isCaseless (by decide)).1 hslash
      exact afterOwner?_eq_some.2 ⟨owner, howner, rfl⟩

theorem afterColonSlash_eq_some : afterForm? ":/".toList cs = some r ↔ cs = ":/".toList ++ r := by
  rw [afterForm?_eq_some]
  constructor
  · rintro ⟨_, _ | ⟨hcolon, _ | ⟨hslash, ⟨⟩⟩⟩, rfl⟩
    obtain rfl := (isLetterForm_of_isCaseless (by decide)).1 hcolon
    obtain rfl := (isLetterForm_of_isCaseless (by decide)).1 hslash
    rfl
  · rintro rfl
    exact ⟨_, .cons (by decide) (.cons (by decide) .nil), rfl⟩

theorem cutAt_eq_some : (Text.cutAt c cs).2 = some r ↔ ∃ q, c ∉ q ∧ cs = q ++ c :: r := by
  constructor
  · intro h
    by_cases hc : c ∈ cs
    · obtain ⟨q, t, rfl, hq⟩ := List.eq_append_cons_of_mem hc
      rw [Text.cutAt_append hq] at h
      exact ⟨q, hq, by rw [Option.some.inj h]⟩
    · rw [Text.cutAt, Text.dropWhile_ne_of_not_mem hc] at h
      cases h
  · rintro ⟨q, hq, rfl⟩
    rw [Text.cutAt_append hq]

/-! ## The table -/

/-- An entry of the table finds a beginning, in a path without line feeds. -/
def LegacyForm.Finds (f : LegacyForm) (b : Beginning) : Prop :=
  f.replacement = b.replacement ∧
    ∀ cs r, '\n' ∉ cs → (f.after? cs = some r ↔ b.Leaves cs r)

/-- What is left of a path has no line feed when the path has none. -/
theorem not_mem_of_afterWord (hword : ws.head? = some '/') (h : '\n' ∉ cs)
    (hr : (afterOwner? cs).bind (afterForm? ws) = some r) : '\n' ∉ r := by
  obtain ⟨owner, w, -, -, rfl⟩ := (afterWord_iff hword).1 hr
  exact fun hmem => h (by simp [hmem])

/-- It is enough to find what may stand behind the word. -/
theorem LegacyForm.Finds.of_tail {b : Beginning} {find : List Char → Option (List Char)}
    (hword : b.word.toList.head? = some '/') (hfind : ∀ rest r, '\n' ∉ rest →
      (find rest = some r ↔ ∃ t, b.tail t ∧ EndsSegment r ∧ rest = t ++ r)) :
    LegacyForm.Finds ⟨fun cs => ((afterOwner? cs).bind (afterForm? b.word.toList)).bind find,
      b.replacement⟩ b := by
  refine ⟨rfl, fun cs r h => ?_⟩
  rw [Option.bind_eq_some_iff]
  constructor
  · rintro ⟨rest, hrest, hr⟩
    obtain ⟨t, ht, hends, rfl⟩ := (hfind rest r (not_mem_of_afterWord hword h hrest)).1 hr
    obtain ⟨owner, w, howner, hw, rfl⟩ := (afterWord_iff hword).1 hrest
    exact ⟨_, ⟨owner, w, t, howner, hw, ht, rfl⟩, hends, by simp⟩
  · rintro ⟨_, ⟨owner, w, t, howner, hw, ht, rfl⟩, hends, rfl⟩
    have hrest : (afterOwner? (owner ++ (w ++ t) ++ r)).bind (afterForm? b.word.toList) =
        some (t ++ r) := (afterWord_iff hword).2 ⟨owner, w, howner, hw, by simp⟩
    exact ⟨t ++ r, hrest, (hfind _ r (not_mem_of_afterWord hword h hrest)).2 ⟨t, ht, hends, rfl⟩⟩

theorem findsNothing (h : '\n' ∉ cs) :
    atBoundary? cs = some r ↔ ∃ t : List Char, t = [] ∧ EndsSegment r ∧ cs = t ++ r := by
  rw [atBoundary?_eq_some h]
  constructor
  · rintro ⟨rfl, hends⟩
    exact ⟨[], rfl, hends, rfl⟩
  · rintro ⟨_, rfl, hends, rfl⟩
    exact ⟨rfl, hends⟩

theorem findsFilePath (h : '\n' ∉ cs) :
    ((afterForm? ":/".toList cs).bind fun file => (Text.cutAt ':' file).2.bind atBoundary?) =
      some r ↔ ∃ t, IsFilePath t ∧ EndsSegment r ∧ cs = t ++ r := by
  simp only [Option.bind_eq_some_iff, afterColonSlash_eq_some, cutAt_eq_some]
  constructor
  · rintro ⟨_, rfl, rest, ⟨file, hfile, rfl⟩, hr⟩
    have hrest : '\n' ∉ rest := fun hmem => h (by simp [hmem])
    obtain ⟨rfl, hends⟩ := (atBoundary?_eq_some hrest).1 hr
    exact ⟨_, ⟨file, hfile, rfl⟩, hends, by simp⟩
  · rintro ⟨_, ⟨file, hfile, rfl⟩, hends, rfl⟩
    have hrest : '\n' ∉ r := fun hmem => h (by simp [hmem])
    exact ⟨_, List.append_assoc .., r, ⟨file, hfile, by simp⟩,
      (atBoundary?_eq_some hrest).2 ⟨rfl, hends⟩⟩

/-- **The entries of the table find the beginnings**, one by one. -/
theorem forall₂_finds : List.Forall₂ LegacyForm.Finds legacyForms beginnings := by
  have hfile := LegacyForm.Finds.of_tail (b := itemByPath) (by decide) fun _ _ h => findsFilePath h
  have hroot := LegacyForm.Finds.of_tail (b := driveRoot) (by decide) fun _ _ h => findsNothing h
  have hitems := LegacyForm.Finds.of_tail (b := driveItems) (by decide) fun _ _ h => findsNothing h
  have hparts : ∀ cs, afterForm? "/drive/root:/".toList cs =
      (afterForm? "/drive/root".toList cs).bind (afterForm? ":/".toList) := fun cs =>
    (congrArg (afterForm? · cs) (by decide)).trans afterForm?_append
  simp only [Option.bind_assoc] at hfile hroot hitems
  refine .cons ?_ (.cons hroot (.cons hitems .nil))
  simp only [hparts, Option.bind_eq_bind, Option.bind_assoc]
  exact hfile

/-- The first of the beginnings that the characters have, and what it
leaves. -/
def Beginning.IsFirst (bs : List Beginning) (cs : List Char) (b : Beginning) (s : List Char) :
    Prop :=
  ∃ before after, bs = before ++ b :: after ∧ (∀ d ∈ before, ∀ t, ¬ d.Leaves cs t) ∧ b.Leaves cs s

/-- The first entry that finds anything finds the first beginning. -/
theorem findSome?_finds {forms : List LegacyForm} {bs : List Beginning} (h : '\n' ∉ cs)
    (hforms : List.Forall₂ LegacyForm.Finds forms bs) :
    (forms.findSome? (fun f => (f.after? cs).map fun s => (f, s)) = none ∧
        ∀ b ∈ bs, ∀ s, ¬ b.Leaves cs s) ∨
      ∃ f s b, forms.findSome? (fun f => (f.after? cs).map fun s => (f, s)) = some (f, s) ∧
        f.replacement = b.replacement ∧ Beginning.IsFirst bs cs b s := by
  induction hforms with
  | nil => exact .inl ⟨rfl, by simp⟩
  | @cons f b forms bs hf _ ih =>
    obtain ⟨hreplacement, hfinds⟩ := hf
    cases hafter : f.after? cs with
    | some s =>
      refine .inr ⟨f, s, b, by simp [hafter], hreplacement, [], bs, rfl, by simp, ?_⟩
      exact (hfinds cs s h).1 hafter
    | none =>
      have hnone : ∀ s, ¬ b.Leaves cs s := by
        intro s hs
        rw [(hfinds cs s h).2 hs] at hafter
        cases hafter
      rcases ih with ⟨hmore, habsent⟩ | ⟨g, s, d, hmore, hd, before, after, rfl, hbefore, hleaves⟩
      · exact .inl ⟨by simp [hafter, hmore], List.forall_mem_cons.2 ⟨hnone, habsent⟩⟩
      · exact .inr ⟨g, s, d, by simp [hafter, hmore], hd, b :: before, after, rfl,
          List.forall_mem_cons.2 ⟨hnone, hbefore⟩, hleaves⟩

/-- **A path has a legacy beginning or it has none.** -/
theorem modernise_cases (h : '\n' ∉ p.toList) :
    ((∀ b ∈ beginnings, ∀ s, ¬ b.Leaves p.toList s) ∧ modernise p = p) ∨
      ∃ b s, Beginning.IsFirst beginnings p.toList b s ∧
        modernise p = b.replacement ++ String.ofList s := by
  unfold modernise
  rcases findSome?_finds h forall₂_finds with ⟨hnone, habsent⟩ | ⟨f, s, b, hsome, hb, hfirst⟩
  · rw [hnone]
    exact .inl ⟨habsent, rfl⟩
  · rw [hsome]
    exact .inr ⟨b, s, hfirst, congrArg (· ++ String.ofList s) hb⟩

/-! ## Ends of segments -/

/-- The two words are told apart by their letters. -/
theorem not_root_and_items (hroot : afterForm? driveRoot.word.toList cs = some r)
    (hitems : afterForm? driveItems.word.toList cs = some s) : False := by
  obtain ⟨q, hq, rfl⟩ := afterForm?_eq_some.1 hroot
  obtain ⟨q', hq', hcs⟩ := afterForm?_eq_some.1 hitems
  have hmap := congrArg (List.map letterOf) hcs
  have hroot := hq.map_letterOf (Text.forall_of_all (by decide +kernel))
  have hitems := hq'.map_letterOf (Text.forall_of_all (by decide +kernel))
  rw [List.map_append, List.map_append, hroot, hitems] at hmap
  simp [driveRoot, driveItems] at hmap

theorem not_endsSegment (hc : c ≠ '/') : ¬ EndsSegment (c :: s) := by
  simp [EndsSegment, hc]

/-- **No beginning ends inside a segment**, but for the word in front of the
colon of a file path. -/
theorem not_leaves_of_inside {b d : Beginning} (hb : b ∈ beginnings) (hd : d ∈ beginnings)
    (hq : b.Describes q) (hslash : c ≠ '/') (hcolon : c ≠ ':') (r s : List Char) :
    ¬ d.Leaves (q ++ c :: r) s := by
  rintro ⟨_, ⟨owner', w', t', howner', hw', ht', rfl⟩, hends, hcs⟩
  obtain ⟨owner, w, t, howner, hw, ht, rfl⟩ := hq
  have hwords : ∀ e ∈ beginnings, e.word.toList.head? = some '/' := by decide
  -- what follows the owner and the word, read as both beginnings have it
  have hown : (afterOwner? (owner ++ (w ++ t) ++ c :: r)).bind (afterForm? b.word.toList) =
      some (t ++ c :: r) := (afterWord_iff (hwords b hb)).2 ⟨owner, w, howner, hw, by simp⟩
  have hother : (afterOwner? (owner ++ (w ++ t) ++ c :: r)).bind (afterForm? d.word.toList) =
      some (t' ++ s) := (afterWord_iff (hwords d hd)).2 ⟨owner', w', howner', hw', by simp [hcs]⟩
  obtain ⟨rest, hrest, hword⟩ := Option.bind_eq_some_iff.1 hown
  rw [hrest, Option.bind_some] at hother
  have hsame : b.word = d.word → t ++ c :: r = t' ++ s := fun hbd =>
    Option.some.inj (hword.symm.trans (hbd ▸ hother))
  simp only [beginnings, List.mem_cons, List.not_mem_nil, or_false] at hb hd
  rcases hb with rfl | rfl | rfl <;> rcases hd with rfl | rfl | rfl
  · obtain ⟨file, hfile, rfl⟩ := ht
    obtain ⟨file', hfile', rfl⟩ := ht'
    have hcut := congrArg (Text.cutAt ':') (show file ++ ':' :: c :: r = file' ++ ':' :: s by
      simpa using hsame rfl)
    rw [Text.cutAt_append hfile, Text.cutAt_append hfile'] at hcut
    obtain ⟨-, hrs⟩ := Prod.mk.inj hcut
    exact not_endsSegment hslash (Option.some.inj hrs ▸ hends)
  · obtain ⟨file, -, rfl⟩ := ht
    obtain rfl : t' = [] := ht'
    obtain rfl : s = ':' :: '/' :: (file ++ [':'] ++ c :: r) := (hsame rfl).symm
    exact not_endsSegment (by decide) hends
  · exact not_root_and_items hword hother
  · obtain ⟨file', -, rfl⟩ := ht'
    obtain rfl : t = [] := ht
    exact hcolon (List.cons.inj (hsame rfl)).1
  · obtain rfl : t = [] := ht
    obtain rfl : t' = [] := ht'
    obtain rfl : s = c :: r := (hsame rfl).symm
    exact not_endsSegment hslash hends
  · exact not_root_and_items hword hother
  · exact not_root_and_items hother hword
  · exact not_root_and_items hother hword
  · obtain rfl : t = [] := ht
    obtain rfl : t' = [] := ht'
    obtain rfl : s = c :: r := (hsame rfl).symm
    exact not_endsSegment hslash hends

/-! ## All paths -/

theorem modernise_of_no_owner (h : afterOwner? p.toList = none) : modernise p = p := by
  have hnone : (legacyForms.findSome? fun f => (f.after? p.toList).map fun s => (f, s)) = none := by
    simp [legacyForms, h]
  rw [modernise, hnone]

/-- The replacements name no owner. -/
theorem afterOwner?_drives (cs : List Char) : afterOwner? ('/' :: 'd' :: cs) = none := by
  have huser : isLetterForm 'u' 'd' = false := by decide +kernel
  have hme : isLetterForm 'm' 'd' = false := by decide +kernel
  simp [afterOwner?, afterForm?, huser, hme]

/-- **A legacy beginning is replaced and the rest is kept.** A path without
line feeds either has no legacy beginning and stays, or it is that of the first
beginning that it has, replaced, and then what follows, which is nothing or
begins with a slash. A path in which something other than a slash follows a
beginning stays, where this is not the colon of a file path; and doing it again
changes nothing. -/
theorem modernise_keeps_rest (p : String) (h : '\n' ∉ p.toList) :
    (((∀ b ∈ beginnings, ∀ s, ¬ b.Leaves p.toList s) ∧ modernise p = p) ∨
        ∃ b s, Beginning.IsFirst beginnings p.toList b s ∧
          modernise p = b.replacement ++ String.ofList s) ∧
      (∀ b ∈ beginnings, ∀ q c r, b.Describes q → p.toList = q ++ c :: r → c ≠ '/' → c ≠ ':' →
        modernise p = p) ∧
      modernise (modernise p) = modernise p := by
  refine ⟨modernise_cases h, fun b hb q c r hq hp hslash hcolon => ?_, ?_⟩
  · rcases modernise_cases h with ⟨-, hsame⟩ | ⟨d, s, ⟨before, after, hsplit, -, hleaves⟩, -⟩
    · exact hsame
    · have hd : d ∈ beginnings := hsplit ▸ by simp
      exact absurd (hp ▸ hleaves) (not_leaves_of_inside hb hd hq hslash hcolon r s)
  · rcases modernise_cases h with ⟨-, hsame⟩ | ⟨d, s, ⟨before, after, hsplit, -, -⟩, hnew⟩
    · rw [hsame, hsame]
    · have hstart : ∀ e ∈ beginnings, ∃ cs, e.replacement.toList = '/' :: 'd' :: cs := by
        simp [beginnings, itemByPath, driveRoot, driveItems]
      obtain ⟨cs, hcs⟩ := hstart d (hsplit ▸ by simp)
      refine modernise_of_no_owner ?_
      rw [hnew, String.toList_append, hcs]
      exact afterOwner?_drives _

/-- An item in the drive of a user, in other letters than the table has. -/
def writtenItem : String := "/Users/ann/Drive/ROOT:/a/b.txt:/content"

/-- The word of the root, which goes on to the end of the segment. -/
def longRoot : String := "/me/drive/rootX"

theorem modernise_keeps_rest_item :
    '\n' ∉ writtenItem.toList ∧
      Beginning.IsFirst beginnings writtenItem.toList itemByPath "/content".toList ∧
      modernise (modernise writtenItem) = modernise writtenItem ∧
      driveRoot.Describes "/me/drive/root".toList ∧ modernise longRoot = longRoot := by
  have hitem : '\n' ∉ writtenItem.toList := by decide
  have hroot : driveRoot.Describes "/me/drive/root".toList :=
    ⟨"/me".toList, "/drive/root".toList, [], .me (by decide), by decide, rfl, rfl⟩
  have hleaves : itemByPath.Leaves writtenItem.toList "/content".toList := by
    refine ⟨"/Users/ann/Drive/ROOT:/a/b.txt:".toList, ⟨"/Users/ann".toList, "/Drive/ROOT".toList,
      ":/a/b.txt:".toList, ?_, by decide, ⟨"a/b.txt".toList, by decide, by decide⟩, by decide⟩,
      .inr ⟨"content".toList, by decide⟩, by decide⟩
    show IsOwner ("/Users/".toList ++ "ann".toList)
    exact .user (by decide) (by decide) (by decide)
  obtain ⟨-, -, hagain⟩ := modernise_keeps_rest writtenItem hitem
  obtain ⟨-, hinside, -⟩ := modernise_keeps_rest longRoot (by decide)
  exact ⟨hitem, ⟨[], _, rfl, by simp, hleaves⟩, hagain, hroot,
    hinside driveRoot (by simp [beginnings]) _ 'X' [] hroot (by decide) (by decide) (by decide)⟩

end Path

end ApiSnippets
