import ApiSnippets.Proofs.Request.Call
import ApiSnippets.Proofs.Text.Fold
/-!
# Calls in other letters

A call is taken apart at characters without letter case, so the parts of a
folded call are the folded parts (`written_fold`). What can differ between two
calls with the same letters is which of the written arguments the reader keeps:
it compares their names as they are written, and the look-up of a value
compares them without regard to letter case. Where no name repeats in other
letters, the value that is found is the last one written (`argument?_written`),
and so the same for both, letter case aside.
-/

namespace ApiSnippets

namespace Call

open Text

variable {cs : List Char}

/-- Two parts of a text, folded. -/
def foldBoth (p : List Char × List Char) : List Char × List Char :=
  (fold p.1, fold p.2)

/-! ## Values -/

theorem toLower_quote : Char.toLower '\'' = '\'' := by
  decide

theorem toLower_eq_quote {c : Char} : c.toLower = '\'' ↔ c = '\'' :=
  toLower_eq_iff (by decide)

theorem closeQuote_cons {c : Char} (hc : c ≠ '\'') (cs : List Char) :
    closeQuote (c :: cs) = (closeQuote cs).map fun (text, rest) => (c :: text, rest) := by
  rw [closeQuote.eq_5]
  · exact fun h => absurd h hc
  · exact fun _ h => absurd h hc
  · exact hc

theorem closeQuote_fold (cs : List Char) :
    closeQuote (fold cs) = (closeQuote cs).map foldBoth := by
  induction cs using closeQuote.induct with
  | case1 => rfl
  | case2 => rfl
  | case3 cs text rest hclose ih =>
    rw [hclose] at ih
    simp [closeQuote, hclose, ih, toLower_quote, foldBoth]
  | case4 cs hclose ih =>
    rw [hclose] at ih
    simp [closeQuote, hclose, ih, toLower_quote, foldBoth]
  | case5 cs hempty hquote =>
    cases cs with
    | nil => exact absurd rfl hempty
    | cons d ds =>
      have hd : d.toLower ≠ '\'' := fun h => hquote ds (by rw [toLower_eq_quote.1 h])
      simp [closeQuote, hd, toLower_quote, foldBoth]
  | case6 c cs _ _ hc ih =>
    have hc' : c.toLower ≠ '\'' := fun h => hc (toLower_eq_quote.1 h)
    rw [fold_cons, closeQuote_cons hc', closeQuote_cons hc, ih]
    cases closeQuote cs <;> rfl

theorem upToComma_fold (cs : List Char) : upToComma (fold cs) = foldBoth (upToComma cs) := by
  have hcomma := bne_toLower (d := ',') (by decide)
  rw [upToComma, upToComma, takeWhile_fold hcomma, dropWhile_fold hcomma, foldBoth]

theorem takeValue_fold (cs : List Char) : takeValue (fold cs) = foldBoth (takeValue cs) := by
  cases cs with
  | nil => exact upToComma_fold []
  | cons c cs =>
    by_cases hc : c = '\''
    · subst hc
      rw [fold_cons, toLower_quote, takeValue, takeValue, closeQuote_fold]
      cases closeQuote cs with
      | none => exact upToComma_fold ('\'' :: cs)
      | some p => simp [foldBoth, toLower_quote]
    · have hc' : c.toLower ≠ '\'' := mt toLower_eq_quote.1 hc
      rw [takeValue_eq_upToComma (by simpa using hc'), takeValue_eq_upToComma (by simpa using hc),
        upToComma_fold]

theorem unquoteChars_fold (cs : List Char) : unquoteChars (fold cs) = fold (unquoteChars cs) := by
  rw [unquoteChars, unquoteChars, strip_fold]
  cases strip cs with
  | nil => rfl
  | cons c more =>
    by_cases hc : c = '\''
    · subst hc
      simp only [fold_cons, toLower_quote, fold_reverse]
      cases hmore : more.reverse with
      | nil => simp [toLower_quote]
      | cons d inner =>
        by_cases hd : d = '\''
        · subst hd
          simp only [fold_cons, toLower_quote, fold_reverse]
          exact replacePair_fold (by decide) _
        · have hd' : d.toLower ≠ '\'' := mt toLower_eq_quote.1 hd
          simp [hd, hd', toLower_quote]
    · have hc' : c.toLower ≠ '\'' := mt toLower_eq_quote.1 hc
      simp [hc, hc']

/-- **A folded value stands for the folded text.** -/
theorem unquote_folded (s : String) : unquote (folded s) = folded (unquote s) := by
  rw [unquote, unquote, toList_folded, unquoteChars_fold, folded_ofList]

theorem afterEquals?_fold (cs : List Char) :
    afterEquals? (fold cs) = (afterEquals? cs).map fold := by
  have hequals : ∀ c : Char, c.toLower = '=' ↔ c = '=' := fun c => toLower_eq_iff (by decide)
  rw [afterEquals?, afterEquals?, dropWhile_fold isBlank_toLower]
  cases cs.dropWhile isBlank with
  | nil => rfl
  | cons c rest =>
    by_cases hc : c = '='
    · subst hc
      exact congrArg some (dropWhile_fold isBlank_toLower)
    · have hc' : c.toLower ≠ '=' := mt (hequals c).1 hc
      simp [hc, hc']

/-- **The arguments of a folded text** are the folded arguments. The induction
is on the length of what is still to be read. -/
theorem scan_fold (cs : List Char) : scan (fold cs) = (scan cs).map foldBoth := by
  induction hn : cs.length using Nat.strongRecOn generalizing cs with
  | _ n ih =>
    cases cs with
    | nil => rw [fold_nil, scan]; rfl
    | cons c cs =>
      rw [List.length_cons] at hn
      have hafter : afterEquals? ((c.toLower :: fold cs).dropWhile isWord) =
          (afterEquals? ((c :: cs).dropWhile isWord)).map fold := by
        rw [← fold_cons, dropWhile_fold isWord_toLower, afterEquals?_fold]
      -- a name with an equals sign behind it is an argument, and anything else is passed over
      by_cases hfound : isWord c = true ∧
          ∃ found, afterEquals? ((c :: cs).dropWhile isWord) = some found
      · obtain ⟨hc, found, hfound⟩ := hfound
        have hlength : (takeValue found).2.length < n := by
          have hvalue := takeValue_length found
          have hequals := afterEquals?_length hfound
          have hword := (List.dropWhile_suffix (l := c :: cs) isWord).length_le
          rw [List.length_cons] at hword
          omega
        rw [hfound] at hafter
        rw [fold_cons, scan_of_afterEquals? (isWord_toLower c ▸ hc) hafter,
          scan_of_afterEquals? hc hfound, takeValue_fold, ← fold_cons,
          takeWhile_fold isWord_toLower]
        simp only [foldBoth, strip_fold, List.map_cons, ih _ hlength _ rfl]
      · have hskip : isWord c = true → afterEquals? ((c :: cs).dropWhile isWord) = none := by
          intro hc
          by_contra hne
          exact hfound ⟨hc, Option.ne_none_iff_exists'.1 hne⟩
        have hskip' : isWord c.toLower = true →
            afterEquals? ((c.toLower :: fold cs).dropWhile isWord) = none := by
          intro hc
          rw [hafter, hskip (isWord_toLower c ▸ hc), Option.map_none]
        rw [fold_cons, scan_skip hskip', scan_skip hskip, ih cs.length (by omega) cs rfl]

/-! ## Segments -/

/-- The parts of a segment as they are written, arguments that repeat
included. -/
def written (cs : List Char) : List Char × List (List Char × List Char) :=
  match cutAt '(' cs with
  | (name, some inner) =>
    if cs.reverse.head? = some ')' then (name, scan inner.dropLast) else (cs, [])
  | (_, none) => (cs, [])

/-- A pair of parts as texts. -/
def texts (p : List Char × List Char) : String × String :=
  (String.ofList p.1, String.ofList p.2)

theorem ofChars_eq (cs : List Char) :
    ofChars cs = ⟨String.ofList (written cs).1, Entries.ofPairs ((written cs).2.map texts)⟩ := by
  unfold ofChars written
  rcases cutAt '(' cs with ⟨name, - | inner⟩
  · dsimp only
    split <;> rfl
  · dsimp only
    split
    · next hrev =>
      rw [hrev, List.head?_cons, if_pos rfl]
      rfl
    · next hrev =>
      rw [if_neg]
      · rfl
      · intro hhead
        obtain ⟨more, hmore⟩ := List.head?_eq_some_iff.1 hhead
        exact hrev more hmore

/-- **The parts of a folded segment** are the folded parts. -/
theorem written_fold (cs : List Char) :
    written (fold cs) = (fold (written cs).1, (written cs).2.map foldBoth) := by
  have hclose : (fold cs).reverse.head? = some ')' ↔ cs.reverse.head? = some ')' := by
    have htoLower : ∀ c : Char, c.toLower = ')' ↔ c = ')' := fun c => toLower_eq_iff (by decide)
    rw [fold_reverse]
    cases cs.reverse with
    | nil => rfl
    | cons c more => simp [htoLower]
  unfold written
  rw [cutAt_fold (by decide)]
  rcases cutAt '(' cs with ⟨name, - | inner⟩
  · rfl
  · have hinner : (fold inner).dropLast = fold inner.dropLast := List.map_dropLast.symm
    by_cases hend : cs.reverse.head? = some ')'
    · simp only [Option.map_some, if_pos (hclose.2 hend), if_pos hend, hinner, scan_fold]
    · simp only [Option.map_some, if_neg (mt hclose.1 hend), if_neg hend, List.map_nil]

theorem ofSegment_eq (s : String) : ofSegment s =
    ⟨String.ofList (written s.toList).1, Entries.ofPairs ((written s.toList).2.map texts)⟩ :=
  ofChars_eq s.toList

theorem ofSegment_folded (s : String) : ofSegment (folded s) =
    ⟨folded (ofSegment s).name,
      Entries.ofPairs ((written s.toList).2.map fun p => texts (foldBoth p))⟩ := by
  rw [ofSegment_eq, ofSegment_eq, toList_folded, written_fold, folded_ofList, List.map_map]
  rfl

/-! ## Arguments -/

variable {pairs : List (String × String)} {name s : String}

/-- The entry with the one key that has a property. -/
theorem find?_key {es : Entries String String} (p : String → Bool) {key : String}
    (hkey : p key = true) (honly : ∀ e ∈ es, p e.1 = true → e.1 = key) :
    (es.find? fun e => p e.1).map Prod.snd = es.get? key := by
  induction es with
  | nil => rfl
  | cons e es ih =>
    obtain ⟨he, hes⟩ := List.forall_mem_cons.1 honly
    rw [Entries.get?, List.lookup_cons, List.find?_cons]
    by_cases hk : key = e.1
    · simp [← hk, hkey]
    · have hp : p e.1 = false := by
        by_contra hp
        exact hk (he (by simpa using hp)).symm
      simpa [hp, beq_eq_false_iff_ne.2 hk, Entries.get?] using ih hes

/-- The names of arguments that no other letter case repeats. -/
def KeepsLetters (args : Entries String String) : Prop :=
  (args.keys.map lower).Nodup

/-- **Where no name repeats in other letters, the last value is found** that
is written under a name, in whatever letter case. -/
theorem argument?_ofPairs (h : KeepsLetters (Entries.ofPairs pairs)) (name : String) :
    argument? (Entries.ofPairs pairs) name =
      (pairs.reverse.find? fun e => sameLetters e.1 name).map Prod.snd := by
  have hkeys : ∀ e ∈ Entries.ofPairs pairs, e.1 ∈ Entries.keys (Entries.ofPairs pairs) :=
    fun e he => List.mem_map_of_mem he
  have hpairs : ∀ e ∈ pairs.reverse, e.1 ∈ Entries.keys (Entries.ofPairs pairs) := fun e he =>
    Entries.mem_keys_ofPairs.2 (List.mem_map_of_mem (List.mem_reverse.1 he))
  by_cases hname : ∃ key ∈ Entries.keys (Entries.ofPairs pairs), sameLetters key name = true
  · obtain ⟨key, hkey, hletters⟩ := hname
    have hone : ∀ k ∈ Entries.keys (Entries.ofPairs pairs), sameLetters k name = true → k = key :=
      fun k hk hsame =>
        List.inj_on_of_nodup_map h hk hkey ((eq_of_beq hsame).trans (eq_of_beq hletters).symm)
    rw [argument?, find?_key (sameLetters · name) hletters fun e he => hone e.1 (hkeys e he),
      find?_key (sameLetters · name) hletters fun e he => hone e.1 (hpairs e he),
      Entries.get?_ofPairs, Entries.get?]
  · have hnone : ∀ k ∈ Entries.keys (Entries.ofPairs pairs), ¬ sameLetters k name = true :=
      fun k hk hsame => hname ⟨k, hk, hsame⟩
    rw [argument?, List.find?_eq_none.2 fun e he => hnone e.1 (hkeys e he),
      List.find?_eq_none.2 fun e he => hnone e.1 (hpairs e he)]

/-- A folded call repeats no name in other letters if the call does not. -/
theorem keepsLetters_folded (h : KeepsLetters (ofSegment s).arguments) :
    KeepsLetters (ofSegment (folded s)).arguments := by
  rw [ofSegment_eq] at h
  rw [ofSegment_folded]
  refine (Entries.nodup_keys_ofPairs _).map_on fun a ha b hb hab => ?_
  -- two folded names with the same letters are one written name
  rw [Entries.mem_keys_ofPairs, List.map_map, List.mem_map] at ha hb
  obtain ⟨p, hp, rfl⟩ := ha
  obtain ⟨q, hq, rfl⟩ := hb
  have hkeys : ∀ r ∈ (written s.toList).2, (texts r).1 ∈
      Entries.keys (Entries.ofPairs ((written s.toList).2.map texts)) := by
    intro r hr
    rw [Entries.mem_keys_ofPairs, List.map_map]
    exact List.mem_map_of_mem hr
  have hlower : lower (texts p).1 = lower (texts q).1 := by
    rw [← lower_folded, ← @lower_folded (texts q).1, texts, texts, folded_ofList, folded_ofList]
    exact hab
  have hsame : (texts p).1 = (texts q).1 :=
    List.inj_on_of_nodup_map h (hkeys p hp) (hkeys q hq) hlower
  have hfold : p.1 = q.1 := String.ofList_inj.1 hsame
  simp [texts, foldBoth, hfold]

/-- **The value under a name in a folded call** is the folded value. -/
theorem argument?_folded (h : KeepsLetters (ofSegment s).arguments) (name : String) :
    argument? (ofSegment (folded s)).arguments name =
      (argument? (ofSegment s).arguments name).map folded := by
  have hfolded := keepsLetters_folded h
  have hletters : ∀ p, sameLetters (texts (foldBoth p)).1 name = sameLetters (texts p).1 name := by
    intro p
    rw [texts, foldBoth, ← folded_ofList, sameLetters, lower_folded]
    rfl
  have hvalue : ∀ p, (texts (foldBoth p)).2 = folded (texts p).2 := fun p =>
    folded_ofList.symm
  rw [ofSegment_folded] at hfolded ⊢
  rw [ofSegment_eq] at h ⊢
  rw [argument?_ofPairs hfolded, argument?_ofPairs h, ← List.map_reverse, ← List.map_reverse,
    List.find?_map, List.find?_map]
  simp only [Function.comp_def, hletters, Option.map_map, hvalue]

end Call

end ApiSnippets
