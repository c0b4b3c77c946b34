import Mathlib.Data.List.Basic
import Mathlib.Data.List.Induction
import ApiSnippets.Entries
/-!
# Putting entries

What a table holds after entries were put into it. A key that is there keeps
its place and takes the new value, any other key comes last (`put_cases`); so
no key is there twice, and of the values put under one key the last one is
found. A whole table can be put into another one at once (`putAll_eq`).
-/

namespace ApiSnippets

theorem nodup_eraseDups {α : Type} [BEq α] [LawfulBEq α] (xs : List α) : xs.eraseDups.Nodup := by
  induction hn : xs.length using Nat.strongRecOn generalizing xs with
  | _ n ih =>
    cases xs with
    | nil => exact List.nodup_nil
    | cons x xs =>
      have hlength := List.length_filter_le (fun b => !b == x) xs
      rw [List.eraseDups_cons, List.nodup_cons, List.mem_eraseDups]
      exact ⟨by simp, ih _ (by simp at hn; omega) _ rfl⟩

namespace Entries

variable {α β : Type} [BEq α]

/-- **An entry is put in the place of its key, or at the end.** -/
theorem put_cases (key : α) (value : β) (es : Entries α β) :
    (∃ before k w after, es = before ++ (k, w) :: after ∧ (key == k) = true ∧
      put key value es = before ++ (k, value) :: after) ∨
    ((∀ e ∈ es, (key == e.1) = false) ∧ put key value es = es ++ [(key, value)]) := by
  induction es with
  | nil => exact .inr ⟨by simp, rfl⟩
  | cons e es ih =>
    obtain ⟨k, w⟩ := e
    cases hk : key == k with
    | true => exact .inl ⟨[], k, w, es, rfl, hk, by simp [put, hk]⟩
    | false =>
      rcases ih with ⟨before, k', w', after, rfl, hk', hput⟩ | ⟨hnew, hput⟩
      · exact .inl ⟨(k, w) :: before, k', w', after, rfl, hk', by simp [put, hk, hput]⟩
      · refine .inr ⟨?_, by simp [put, hk, hput]⟩
        intro e he
        rcases List.mem_cons.1 he with rfl | he
        · exact hk
        · exact hnew e he

/-- The keys of a table, none of which is the same as an earlier one. -/
def Distinct (es : Entries α β) : Prop :=
  (keys es).Pairwise fun a b => (b == a) = false

theorem distinct_put {key : α} {value : β} {es : Entries α β} (h : Distinct es) :
    Distinct (put key value es) := by
  rcases put_cases key value es with ⟨before, k, w, after, rfl, -, hput⟩ | ⟨hnew, hput⟩
  · rw [hput]
    simpa [Distinct, keys] using h
  · rw [hput, Distinct, keys, List.map_append, List.pairwise_append]
    refine ⟨h, List.pairwise_singleton _ _, ?_⟩
    intro a ha b hb
    obtain ⟨e, he, rfl⟩ := List.mem_map.1 ha
    obtain rfl : b = key := by simpa using hb
    exact hnew e he

theorem distinct_putAll {es : Entries α β} (pairs : List (α × β)) (h : Distinct es) :
    Distinct (putAll es pairs) := by
  induction pairs generalizing es with
  | nil => exact h
  | cons p pairs ih => exact ih (distinct_put h)

/-- Of two values put under one key the first leaves no trace. -/
theorem put_put [ReflBEq α] (key : α) (value value' : β) (es : Entries α β) :
    put key value (put key value' es) = put key value es := by
  induction es with
  | nil => simp [put]
  | cons e es ih => cases h : key == e.1 <;> simp [put, h, ih]

theorem putAll_append (es : Entries α β) (pairs more : List (α × β)) :
    putAll es (pairs ++ more) = putAll (putAll es pairs) more :=
  List.foldl_append

/-! ## Keys that are compared by equality -/

variable [LawfulBEq α]

@[simp] theorem get?_put (key k : α) (value : β) (es : Entries α β) :
    get? (put key value es) k = if k == key then some value else get? es k := by
  induction es with
  | nil => cases h : k == key <;> simp [put, get?, List.lookup_cons, h]
  | cons e es ih =>
    obtain ⟨k', w⟩ := e
    simp only [get?] at ih ⊢
    by_cases hk : key = k'
    · subst hk
      cases h : k == key <;> simp [put, List.lookup_cons, h]
    · have hk' : (key == k') = false := beq_eq_false_iff_ne.2 hk
      cases h : k == k' with
      | true =>
        obtain rfl := eq_of_beq h
        have h' : (k == key) = false := beq_eq_false_iff_ne.2 (Ne.symm hk)
        simp [put, hk', h']
      | false => simp only [put, hk', List.lookup_cons, h, Bool.false_eq_true, if_false, ih]

/-- **Of the values put under a key the last one is found.** -/
theorem get?_putAll (es : Entries α β) (pairs : List (α × β)) (k : α) :
    get? (putAll es pairs) k = (pairs.reverse.lookup k).or (get? es k) := by
  induction pairs generalizing es with
  | nil => rfl
  | cons p pairs ih =>
    obtain ⟨key, value⟩ := p
    show get? (putAll (put key value es) pairs) k = _
    rw [ih, get?_put, List.reverse_cons, List.lookup_append, Option.or_assoc]
    congr 1
    cases h : k == key <;> simp [List.lookup_cons, h]

theorem get?_ofPairs (pairs : List (α × β)) (k : α) :
    get? (ofPairs pairs) k = pairs.reverse.lookup k := by
  rw [ofPairs, get?_putAll]
  simp [get?]

theorem isSome_get?_iff {es : Entries α β} {k : α} : (get? es k).isSome ↔ k ∈ keys es := by
  induction es with
  | nil => simp [get?, keys]
  | cons e es ih =>
    obtain ⟨k', w⟩ := e
    simp only [get?, keys, List.lookup_cons, List.map_cons, List.mem_cons] at ih ⊢
    cases h : k == k' with
    | true => simp [eq_of_beq h]
    | false => simpa only [beq_eq_false_iff_ne.1 h, false_or] using ih

theorem mem_of_lookup {es : Entries α β} {k : α} {value : β} (h : es.lookup k = some value) :
    (k, value) ∈ es := by
  obtain ⟨before, after, rfl, -⟩ := List.lookup_eq_some_iff.1 h
  simp

theorem mem_keys_put {key k : α} {value : β} {es : Entries α β} :
    k ∈ keys (put key value es) ↔ k = key ∨ k ∈ keys es := by
  rw [← isSome_get?_iff, get?_put, ← isSome_get?_iff]
  cases h : k == key with
  | true => simp [eq_of_beq h]
  | false => simp [beq_eq_false_iff_ne.1 h]

/-- An entry of a table was in it before, or was put. -/
theorem mem_of_mem_put {key : α} {value : β} {es : Entries α β} {e : α × β}
    (h : e ∈ put key value es) : e = (key, value) ∨ e ∈ es := by
  rcases put_cases key value es with ⟨before, k, w, after, rfl, hk, hput⟩ | ⟨-, hput⟩
  · obtain rfl := eq_of_beq hk
    rw [hput, List.mem_append, List.mem_cons] at h
    rw [List.mem_append, List.mem_cons]
    tauto
  · rw [hput, List.mem_append, List.mem_singleton] at h
    exact h.symm

theorem mem_of_mem_putAll {es : Entries α β} {pairs : List (α × β)} {e : α × β}
    (h : e ∈ putAll es pairs) : e ∈ es ∨ e ∈ pairs := by
  induction pairs generalizing es with
  | nil => exact .inl h
  | cons p pairs ih =>
    have h : e ∈ putAll (put p.1 p.2 es) pairs := h
    rcases ih h with h | h
    · rcases mem_of_mem_put h with rfl | h
      · exact .inr List.mem_cons_self
      · exact .inl h
    · exact .inr (List.mem_cons_of_mem _ h)

theorem put_of_not_mem {key : α} {value : β} {es : Entries α β} (h : key ∉ keys es) :
    put key value es = es ++ [(key, value)] := by
  rcases put_cases key value es with ⟨before, k, w, after, rfl, hk, -⟩ | ⟨-, hput⟩
  · exact absurd (by simp [keys, eq_of_beq hk]) h
  · exact hput

/-- Pairs whose keys are new and different are put as they are. -/
theorem putAll_of_nodup {es : Entries α β} {pairs : List (α × β)}
    (h : (keys (es ++ pairs)).Nodup) : putAll es pairs = es ++ pairs := by
  induction pairs generalizing es with
  | nil => exact (List.append_nil es).symm
  | cons p pairs ih =>
    have hnew : p.1 ∉ keys es := by
      rw [keys, List.map_append, List.nodup_append] at h
      exact fun hp => h.2.2 p.1 hp p.1 (by simp) rfl
    show putAll (put p.1 p.2 es) pairs = _
    rw [put_of_not_mem hnew, ih (by simpa using h)]
    simp

theorem ofPairs_of_nodup {pairs : List (α × β)} (h : (keys pairs).Nodup) :
    ofPairs pairs = pairs := by
  rw [ofPairs, putAll_of_nodup (by simpa using h), List.nil_append]

theorem mem_keys_putAll {es : Entries α β} {pairs : List (α × β)} {k : α} :
    k ∈ keys (putAll es pairs) ↔ k ∈ keys es ∨ k ∈ pairs.map Prod.fst := by
  induction pairs generalizing es with
  | nil => simp [putAll]
  | cons p pairs ih =>
    show k ∈ keys (putAll (put p.1 p.2 es) pairs) ↔ _
    rw [ih, mem_keys_put, List.map_cons, List.mem_cons]
    tauto

theorem mem_keys_ofPairs {pairs : List (α × β)} {k : α} :
    k ∈ keys (ofPairs pairs) ↔ k ∈ pairs.map Prod.fst := by
  rw [ofPairs, mem_keys_putAll]
  simp [keys]

theorem nodup_keys_ofPairs (pairs : List (α × β)) : (keys (ofPairs pairs)).Nodup := by
  have hdistinct : Distinct (ofPairs pairs) := distinct_putAll pairs List.Pairwise.nil
  exact hdistinct.imp fun h => (ne_of_beq_false h).symm

/-! ## Tables put into each other -/

/-- Entries under different keys can be put in any order, once the first key
has its place. -/
theorem put_comm {key key' : α} {value value' : β} {es : Entries α β} (hne : key' ≠ key)
    (hmem : key ∈ keys es) :
    put key value (put key' value' es) = put key' value' (put key value es) := by
  induction es with
  | nil => simp [keys] at hmem
  | cons e es ih =>
    obtain ⟨k, w⟩ := e
    by_cases hk : key = k
    · subst hk
      simp [put, hne]
    · have hmem : key ∈ keys es := by simpa [keys, hk] using hmem
      by_cases hk' : key' = k
      · subst hk'
        simp [put, Ne.symm hne]
      · simp [put, hk, hk', ih hmem]

theorem put_putAll {key : α} {value : β} {es pairs : Entries α β} (hmem : key ∈ keys es)
    (hnew : key ∉ keys pairs) :
    put key value (putAll es pairs) = putAll (put key value es) pairs := by
  induction pairs generalizing es with
  | nil => rfl
  | cons p pairs ih =>
    obtain ⟨hp, hpairs⟩ := not_or.1 (mt List.mem_cons.2 hnew)
    show put key value (putAll (put p.1 p.2 es) pairs) =
      putAll (put p.1 p.2 (put key value es)) pairs
    rw [ih (mem_keys_put.2 (.inr hmem)) hpairs, put_comm (Ne.symm hp) hmem]

/-- A table into which an entry was put is put like the table, and then the
entry. -/
theorem putAll_put {key : α} {value : β} {es pairs : Entries α β} (h : (keys pairs).Nodup) :
    putAll es (put key value pairs) = put key value (putAll es pairs) := by
  rcases put_cases key value pairs with ⟨before, k, w, after, rfl, hk, hput⟩ | ⟨-, hput⟩
  · obtain rfl := eq_of_beq hk
    have hafter : key ∉ keys after := by
      simp only [keys, List.map_append, List.map_cons, List.nodup_append, List.nodup_cons] at h
      exact h.2.1.1
    rw [hput, putAll_append, putAll_append]
    show putAll (put key value (putAll es before)) after =
      put key value (putAll (put key w (putAll es before)) after)
    rw [put_putAll (mem_keys_put.2 (.inl rfl)) hafter, put_put]
  · rw [hput, putAll_append]
    rfl

/-- **Pairs can be put into a table of their own first.** -/
theorem putAll_ofPairs (es : Entries α β) (pairs : List (α × β)) :
    putAll es (ofPairs pairs) = putAll es pairs := by
  induction pairs using List.reverseRecOn with
  | nil => rfl
  | append_singleton pairs p ih =>
    have hlast : ofPairs (pairs ++ [p]) = put p.1 p.2 (ofPairs pairs) := putAll_append _ _ _
    rw [hlast, putAll_put (nodup_keys_ofPairs pairs), ih, putAll_append]
    rfl

theorem nodup_keys_put {key : α} {value : β} {es : Entries α β} (h : (keys es).Nodup) :
    (keys (put key value es)).Nodup := by
  have hdistinct : Distinct es := h.imp fun hne => beq_eq_false_iff_ne.2 (Ne.symm hne)
  exact (distinct_put hdistinct).imp fun hne => (ne_of_beq_false hne).symm

/-- **A table put into another one**: every entry of the other one keeps its
place and takes its value from the table, if its key is there; then come the
entries that are new. -/
theorem putAll_eq {es pairs : Entries α β} (hes : (keys es).Nodup) (hpairs : (keys pairs).Nodup) :
    putAll es pairs =
      es.map (fun e => (e.1, (get? pairs e.1).getD e.2)) ++
        pairs.filter fun p => !(keys es).contains p.1 := by
  induction pairs generalizing es with
  | nil => simp [putAll, get?]
  | cons p pairs ih =>
    obtain ⟨key, value⟩ := p
    obtain ⟨hnew, hpairs⟩ := List.nodup_cons.1 hpairs
    have hnone : get? pairs key = none := by
      rw [← Option.not_isSome_iff_eq_none, isSome_get?_iff]
      exact hnew
    -- the entries under other keys take nothing from this pair
    have hothers : ∀ ds : Entries α β, key ∉ keys ds →
        ds.map (fun e => (e.1, (get? ((key, value) :: pairs) e.1).getD e.2)) =
          ds.map fun e => (e.1, (get? pairs e.1).getD e.2) := by
      intro ds hds
      refine List.map_congr_left fun e he => ?_
      have hne : (e.1 == key) = false :=
        beq_eq_false_iff_ne.2 fun h => hds (List.mem_map.2 ⟨e, he, h⟩)
      simp only [get?, List.lookup_cons, hne]
    show putAll (put key value es) pairs = _
    rw [ih (nodup_keys_put hes) hpairs]
    rcases put_cases key value es with ⟨before, k, w, after, rfl, hk, hput⟩ | ⟨habsent, hput⟩
    · obtain rfl := eq_of_beq hk
      have hkeys : key ∉ keys before ∧ key ∉ keys after := by
        simp only [keys, List.map_append, List.map_cons, List.nodup_append, List.nodup_cons] at hes
        exact ⟨fun h => hes.2.2 key h key List.mem_cons_self rfl, hes.2.1.1⟩
      rw [hput, List.map_append, List.map_append, List.map_cons, List.map_cons, hothers _ hkeys.1,
        hothers _ hkeys.2, hnone]
      simp [get?, keys]
    · have habsent : key ∉ keys es := by
        intro hmem
        obtain ⟨e, he, rfl⟩ := List.mem_map.1 hmem
        simpa using habsent e he
      have hfilter : (pairs.filter fun p => !(keys (es ++ [(key, value)])).contains p.1) =
          pairs.filter fun p => !(keys es).contains p.1 := by
        refine List.filter_congr fun p hp => ?_
        have hne : p.1 ≠ key := fun h => hnew (List.mem_map.2 ⟨p, hp, h⟩)
        simp [keys, hne]
      rw [hput, List.map_append, hothers _ habsent, hfilter,
        List.filter_cons_of_pos (by simpa using habsent)]
      simp [hnone]

end Entries

end ApiSnippets
