import Mathlib.Data.List.Induction
import ApiSnippets.Proofs.Entries
import ApiSnippets.Schema.Classify
/-!
# Names of properties

A property stands under a key of the document, and only a key that is a text,
or octets that encode one, is a name. Two keys may thus have one name, and of
their properties the one whose key comes last is meant: `get?_named_putAll`
says when that is the property put last.
-/

namespace ApiSnippets

namespace Schema

variable {β : Type} {x : String}

/-! ## Keys and names -/

/-- A key keeps its name when an equal one takes its place. -/
theorem recordText?_eq_of_beq {a b : Scalar} (h : (a == b) = true) :
    a.recordText? = b.recordText? := by
  change Scalar.sameKey a b = true at h
  cases a <;> cases b <;> simp_all [Scalar.sameKey, Scalar.recordText?, Scalar.whole?]

theorem text_beq_text (x : String) : (Scalar.text x == Scalar.text x) = true := by
  show Scalar.sameKey _ _ = true
  simp [Scalar.sameKey]

theorem octets_beq_octets (bs : Bytes) : (Scalar.octets bs == Scalar.octets bs) = true := by
  show Scalar.sameKey _ _ = true
  simp [Scalar.sameKey]

/-- A text is encoded in one way only. -/
theorem decode?_inj {bs bs' : Bytes} (h : Utf8.decode? bs = some x)
    (h' : Utf8.decode? bs' = some x) : bs = bs' := by
  have hbytes : ∀ {cs : Bytes}, Utf8.decode? cs = some x → cs = x.toByteArray.data.toList := by
    intro cs hcs
    unfold Utf8.decode? String.fromUTF8? at hcs
    split at hcs
    · obtain rfl := Option.some.inj hcs
      simp [String.fromUTF8]
    · simp at hcs
  rw [hbytes h, hbytes h']

/-- A name is a text, or is encoded in octets. -/
theorem eq_text_or_octets {k : Scalar} (h : k.recordText? = some x) :
    k = .text x ∨ ∃ bs, k = .octets bs ∧ Utf8.decode? bs = some x := by
  cases k with
  | text s => exact .inl (by simpa [Scalar.recordText?] using h)
  | octets bs => exact .inr ⟨bs, rfl, h⟩
  | _ => simp [Scalar.recordText?] at h

/-- That the keys with a name are all equal. -/
def OneKey (ks : List Scalar) (x : String) : Prop :=
  ∀ k ∈ ks, ∀ k' ∈ ks, k.recordText? = some x → k'.recordText? = some x → (k == k') = true

/-- Where a name is not both spelled as a text and in octets, it has one key at
most. -/
theorem oneKey_of_not_both {ks : List Scalar}
    (h : ¬ (.text x ∈ ks ∧ ∃ bs, .octets bs ∈ ks ∧ Utf8.decode? bs = some x)) : OneKey ks x := by
  intro k hk k' hk' hkx hkx'
  rcases eq_text_or_octets hkx with rfl | ⟨bs, rfl, hbs⟩
  · rcases eq_text_or_octets hkx' with rfl | ⟨bs', rfl, hbs'⟩
    · exact text_beq_text x
    · exact absurd ⟨hk, bs', hk', hbs'⟩ h
  · rcases eq_text_or_octets hkx' with rfl | ⟨bs', rfl, hbs'⟩
    · exact absurd ⟨hk', bs, hk, hbs⟩ h
    · rw [decode?_inj hbs hbs']
      exact octets_beq_octets bs'

/-- Some entry has a key with this name. -/
def HasName (es : List (Scalar × β)) (x : String) : Prop :=
  ∃ e ∈ es, e.1.recordText? = some x

@[simp] theorem hasName_nil : ¬ HasName ([] : List (Scalar × β)) x := by
  simp [HasName]

@[simp] theorem hasName_cons {e : Scalar × β} {es : List (Scalar × β)} :
    HasName (e :: es) x ↔ e.1.recordText? = some x ∨ HasName es x := by
  simp [HasName]

@[simp] theorem hasName_append {es fs : List (Scalar × β)} :
    HasName (es ++ fs) x ↔ HasName es x ∨ HasName fs x := by
  simp only [HasName, List.mem_append, or_and_right, exists_or]

theorem hasName_put {key : Scalar} {value : β} {es : Entries Scalar β} :
    HasName (es.put key value) x ↔ key.recordText? = some x ∨ HasName es x := by
  rcases Entries.put_cases key value es with ⟨before, k, w, after, rfl, hk, hput⟩ | ⟨-, hput⟩
  · rw [hput, recordText?_eq_of_beq hk]
    simp only [hasName_append, hasName_cons]
    tauto
  · rw [hput]
    simp only [hasName_append, hasName_cons, hasName_nil, or_false]
    tauto

theorem hasName_putAll {es : Entries Scalar β} {pairs : List (Scalar × β)} :
    HasName (es.putAll pairs) x ↔ HasName es x ∨ HasName pairs x := by
  induction pairs generalizing es with
  | nil => simp [Entries.putAll]
  | cons p pairs ih =>
    show HasName (Entries.putAll (es.put p.1 p.2) pairs) x ↔ _
    rw [ih, hasName_put, hasName_cons]
    tauto

/-- A key of a table is a key it had, or one that was put. -/
theorem mem_keys_of_mem_putAll {es : Entries Scalar β} {pairs : List (Scalar × β)} {k : Scalar}
    (h : k ∈ (es.putAll pairs).keys) : k ∈ es.keys ∨ k ∈ pairs.map Prod.fst := by
  induction pairs generalizing es with
  | nil => exact .inl h
  | cons p pairs ih =>
    rcases @ih (es.put p.1 p.2) h with h | h
    · rcases Entries.put_cases p.1 p.2 es with ⟨before, k', w, after, rfl, -, hput⟩ | ⟨-, hput⟩
      · rw [hput] at h
        exact .inl (by simpa [Entries.keys] using h)
      · rw [hput] at h
        simp only [Entries.keys, List.map_append, List.mem_append] at h
        rcases h with h | h
        · exact .inl h
        · exact .inr (List.mem_cons.2 (.inl (by simpa using h)))
    · exact .inr (List.mem_cons_of_mem _ h)

/-! ## The property of a name -/

/-- The properties that have names, under their names. -/
def namedPairs (ps : List (Scalar × Shape)) : List (String × Shape) :=
  ps.filterMap fun p => p.1.recordText?.map fun name => (name, p.2)

theorem mem_map_namedPairs {ps : List (Scalar × Shape)} :
    x ∈ (namedPairs ps).map Prod.fst ↔ HasName ps x := by
  simp only [namedPairs, List.map_filterMap, List.mem_filterMap, HasName]
  constructor
  · rintro ⟨p, hp, h⟩
    refine ⟨p, hp, ?_⟩
    cases ht : p.1.recordText? with
    | none => simp [ht] at h
    | some name => simpa [ht] using h
  · rintro ⟨p, hp, h⟩
    exact ⟨p, hp, by simp [h]⟩

/-- **The names of properties** are those of their keys. -/
theorem mem_keys_named {ps : List (Scalar × Shape)} :
    x ∈ (named ps).map Prod.fst ↔ HasName ps x := by
  rw [← mem_map_namedPairs]
  show x ∈ Entries.keys (Entries.putAll [] (namedPairs ps)) ↔ _
  rw [Entries.mem_keys_putAll]
  simp [Entries.keys]

/-- Of two parts of a table the later one decides. -/
theorem get?_named_append (ps qs : List (Scalar × Shape)) (x : String) :
    Entries.get? (named (ps ++ qs)) x =
      (Entries.get? (named qs) x).or (Entries.get? (named ps) x) := by
  show Entries.get? (Entries.ofPairs (namedPairs (ps ++ qs))) x = _
  simp only [named, namedPairs, List.filterMap_append, Entries.get?_ofPairs, List.reverse_append,
    List.lookup_append]

theorem get?_named_of_not_hasName {ps : List (Scalar × Shape)} (h : ¬ HasName ps x) :
    Entries.get? (named ps) x = none := by
  by_contra hne
  have hs : (Entries.get? (named ps) x).isSome := Option.isSome_iff_ne_none.2 hne
  exact h (mem_keys_named.1 (Entries.isSome_get?_iff.1 hs))

theorem get?_named_single (k : Scalar) (s : Shape) (x : String) :
    Entries.get? (named [(k, s)]) x = if k.recordText? = some x then some s else none := by
  show Entries.get? (Entries.ofPairs (namedPairs [(k, s)])) x = _
  rw [Entries.get?_ofPairs]
  cases h : k.recordText? with
  | none => simp [namedPairs, h]
  | some name =>
    by_cases hx : name = x
    · simp [namedPairs, h, hx]
    · simp [namedPairs, h, hx, List.lookup_cons, beq_eq_false_iff_ne.2 (Ne.symm hx)]

theorem get?_named_cons (k : Scalar) (s : Shape) (ps : List (Scalar × Shape)) (x : String) :
    Entries.get? (named ((k, s) :: ps)) x =
      (Entries.get? (named ps) x).or (if k.recordText? = some x then some s else none) := by
  rw [← get?_named_single]
  exact get?_named_append [(k, s)] ps x

/-- A property put under another name leaves the one of a name alone. -/
theorem get?_named_put_of_ne {key : Scalar} {s : Shape} {ps : Entries Scalar Shape}
    (h : key.recordText? ≠ some x) :
    Entries.get? (named (ps.put key s)) x = Entries.get? (named ps) x := by
  rcases Entries.put_cases key s ps with ⟨before, k, w, after, rfl, hk, hput⟩ | ⟨-, hput⟩
  · have hk' : k.recordText? ≠ some x := recordText?_eq_of_beq hk ▸ h
    rw [hput, get?_named_append, get?_named_append, get?_named_cons, get?_named_cons, if_neg hk',
      if_neg hk']
  · rw [hput, get?_named_append, get?_named_single, if_neg h, Option.none_or]

/-- A property put under a name is meant, unless an entry of the same name
comes after its place. -/
theorem get?_named_put {key : Scalar} {s : Shape} {ps : Entries Scalar Shape}
    (h : key.recordText? = some x) :
    Entries.get? (named (ps.put key s)) x = some s ∨
      Entries.get? (named (ps.put key s)) x = Entries.get? (named ps) x ∧
        ∃ before k w after, ps = before ++ (k, w) :: after ∧ k.recordText? = some x ∧
          HasName after x := by
  rcases Entries.put_cases key s ps with ⟨before, k, w, after, rfl, hk, hput⟩ | ⟨-, hput⟩
  · have hkx : k.recordText? = some x := recordText?_eq_of_beq hk ▸ h
    by_cases hafter : HasName after x
    · obtain ⟨t, ht⟩ := Option.isSome_iff_exists.1
        (Entries.isSome_get?_iff.2 (mem_keys_named.2 hafter))
      refine .inr ⟨?_, before, k, w, after, rfl, hkx, hafter⟩
      rw [hput, get?_named_append, get?_named_append, get?_named_cons, get?_named_cons]
      simp only [ht, Option.some_or]
    · refine .inl ?_
      rw [hput, get?_named_append, get?_named_cons, get?_named_of_not_hasName hafter, if_pos hkx]
      rfl
  · refine .inl ?_
    rw [hput, get?_named_append, get?_named_single, if_pos h]
    rfl

/-- Where one key at most stands for a name, no entry of the name comes after
another. -/
theorem not_hasName_after {ps : Entries Scalar β} (hd : ps.Distinct) (hone : OneKey ps.keys x)
    {before after : List (Scalar × β)} {k : Scalar} {w : β}
    (hsplit : ps = before ++ (k, w) :: after) (hk : k.recordText? = some x) :
    ¬ HasName after x := by
  rintro ⟨e, he, hex⟩
  have hsame : (e.1 == k) = true := by
    refine hone e.1 (List.mem_map.2 ⟨e, by rw [hsplit]; simp [he], rfl⟩) k ?_ hex hk
    rw [hsplit]
    simp [Entries.keys]
  rw [hsplit, Entries.Distinct, Entries.keys, List.map_append, List.map_cons,
    List.pairwise_append, List.pairwise_cons] at hd
  have hne := hd.2.1.1 e.1 (List.mem_map_of_mem he)
  rw [hsame] at hne
  exact Bool.noConfusion hne

/-- **The property put last is meant**, whatever else has its name, as long as
one key at most stood for it before. -/
theorem get?_named_putAll {ps own : Entries Scalar Shape} (hd : ps.Distinct)
    (hone : OneKey ps.keys x) (hown : HasName own x) :
    ∃ k s, (k, s) ∈ own ∧ k.recordText? = some x ∧
      Entries.get? (named (ps.putAll own)) x = some s := by
  induction own using List.reverseRecOn with
  | nil => exact absurd hown hasName_nil
  | append_singleton own p ih =>
    obtain ⟨key, s⟩ := p
    rw [Entries.putAll_append]
    show ∃ k s', _ ∧ _ ∧ Entries.get? (named ((ps.putAll own).put key s)) x = some s'
    -- what was meant before stays meant, provided it was put here
    have hkeep : HasName own x →
        Entries.get? (named ((ps.putAll own).put key s)) x =
          Entries.get? (named (ps.putAll own)) x →
        ∃ k s', (k, s') ∈ own ++ [(key, s)] ∧ k.recordText? = some x ∧
          Entries.get? (named ((ps.putAll own).put key s)) x = some s' := by
      intro ho hsame
      obtain ⟨k, s', hmem, hk, hs'⟩ := ih ho
      exact ⟨k, s', List.mem_append_left _ hmem, hk, hsame.trans hs'⟩
    by_cases hk : key.recordText? = some x
    · rcases @get?_named_put x key s (ps.putAll own) hk with
        hnew | ⟨hsame, before, k, w, after, hsplit, hkx, hafter⟩
      · exact ⟨key, s, by simp, hk, hnew⟩
      · refine hkeep ?_ hsame
        -- else both entries of the name were there before, and there was one at most
        by_contra ho
        have hold : ∀ k' ∈ (ps.putAll own).keys, k'.recordText? = some x → k' ∈ ps.keys := by
          intro k' hk' hkx'
          rcases mem_keys_of_mem_putAll hk' with hps | hput
          · exact hps
          · obtain ⟨q, hq, rfl⟩ := List.mem_map.1 hput
            exact absurd ⟨q, hq, hkx'⟩ ho
        have honly : OneKey (ps.putAll own).keys x := by
          intro a ha b hb hax hbx
          exact hone a (hold a ha hax) b (hold b hb hbx) hax hbx
        exact not_hasName_after (Entries.distinct_putAll own hd) honly hsplit hkx hafter
    · have ho : HasName own x := by
        simpa [hk] using hown
      exact hkeep ho (get?_named_put_of_ne hk)

end Schema

end ApiSnippets
