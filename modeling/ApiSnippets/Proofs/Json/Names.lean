import ApiSnippets.Proofs.Entries
import ApiSnippets.Proofs.Json.Strings
/-!
# Names in JSON values

Whatever text a value is read from, no object in it has one name twice, at any
depth (`namesOnce_of_read`): the reader keeps the members of an object as
entries.
-/

namespace ApiSnippets

namespace Json

/-- No object in a value has one name twice. -/
inductive NamesOnce : Json → Prop
  | null : NamesOnce .null
  | bool (b : Bool) : NamesOnce (.bool b)
  | int (n : Int) : NamesOnce (.int n)
  | num (x : Float) : NamesOnce (.num x)
  | str (s : String) : NamesOnce (.str s)
  | arr {items : List Json} : (∀ v ∈ items, NamesOnce v) → NamesOnce (.arr items)
  | obj {members : List (String × Json)} : (Entries.keys members).Nodup →
      (∀ p ∈ members, NamesOnce p.2) → NamesOnce (.obj members)

theorem NamesOnce.keys {members : List (String × Json)} (h : NamesOnce (.obj members)) :
    (Entries.keys members).Nodup := by
  cases h with
  | obj hnodup _ => exact hnodup

theorem NamesOnce.of_lookup {members : List (String × Json)} {name : String} {v : Json}
    (h : NamesOnce (.obj members)) (hv : members.lookup name = some v) : NamesOnce v := by
  cases h with
  | obj _ hmembers => exact hmembers (name, v) (Entries.mem_of_lookup hv)

namespace Reader

open Strings (bind_eq_ok)

variable {cs rest : List Char} {v : Json}

theorem namesOnce_of_numeral {negative : Bool} (h : numeral negative cs = .ok (v, rest)) :
    v.NamesOnce := by
  unfold numeral at h
  split at h
  · cases h
  · dsimp only at h
    split at h
    · obtain ⟨rfl, -⟩ := Prod.mk.inj (Except.ok.inj h)
      exact .num _
    · split at h
      · obtain ⟨rfl, -⟩ := Prod.mk.inj (Except.ok.inj h)
        exact .num _
      · split at h
        · cases h
        · obtain ⟨rfl, -⟩ := Prod.mk.inj (Except.ok.inj h)
          exact .int _

theorem namesOnce_of_scalar (h : scalar cs = .ok (v, rest)) : v.NamesOnce := by
  have hwords : ∀ p ∈ wordTable, p.2.NamesOnce := by
    simp [wordTable, NamesOnce.null, NamesOnce.bool, NamesOnce.num]
  unfold scalar at h
  split at h
  · next found hword =>
    obtain rfl := Except.ok.inj h
    obtain ⟨p, hp, hfound⟩ := List.exists_of_findSome?_eq_some hword
    obtain ⟨rest', -, hpair⟩ := Option.map_eq_some_iff.1 hfound
    obtain ⟨rfl, -⟩ := Prod.mk.inj hpair
    exact hwords p hp
  · split at h
    · exact namesOnce_of_numeral h
    · exact namesOnce_of_numeral h

/-- What is read, alone or as a list, has each name once. -/
structure ReadsOnce (fuel : Nat) : Prop where
  value : ∀ {cs v rest}, value fuel cs = .ok (v, rest) → v.NamesOnce
  items : ∀ {cs vs rest}, itemsFrom fuel cs = .ok (vs, rest) → ∀ v ∈ vs, v.NamesOnce
  members : ∀ {cs ms rest}, membersFrom fuel cs = .ok (ms, rest) → ∀ p ∈ ms, p.2.NamesOnce

theorem ReadsOnce.value_succ {fuel : Nat} (h : ReadsOnce fuel)
    (hv : Reader.value (fuel + 1) cs = .ok (v, rest)) : v.NamesOnce := by
  rw [Reader.value.eq_def] at hv
  dsimp only at hv
  split at hv
  · obtain ⟨_, -, hpure⟩ := bind_eq_ok.1 hv
    obtain ⟨rfl, -⟩ := Prod.mk.inj (Except.ok.inj hpure)
    exact .str _
  · split at hv
    · obtain ⟨rfl, -⟩ := Prod.mk.inj (Except.ok.inj hv)
      exact .arr (List.forall_mem_nil _)
    · obtain ⟨⟨items, _⟩, hitems, hpure⟩ := bind_eq_ok.1 hv
      obtain ⟨rfl, -⟩ := Prod.mk.inj (Except.ok.inj hpure)
      exact .arr (h.items hitems)
  · split at hv
    · obtain ⟨rfl, -⟩ := Prod.mk.inj (Except.ok.inj hv)
      exact .obj List.nodup_nil (List.forall_mem_nil _)
    · obtain ⟨⟨members, _⟩, hmembers, hpure⟩ := bind_eq_ok.1 hv
      obtain ⟨rfl, -⟩ := Prod.mk.inj (Except.ok.inj hpure)
      refine .obj (Entries.nodup_keys_ofPairs members) fun p hp => ?_
      exact h.members hmembers p ((Entries.mem_of_mem_putAll hp).resolve_left List.not_mem_nil)
  · exact namesOnce_of_scalar hv

theorem ReadsOnce.items_succ {fuel : Nat} (h : ReadsOnce fuel) {vs : List Json}
    (hvs : itemsFrom (fuel + 1) cs = .ok (vs, rest)) : ∀ v ∈ vs, v.NamesOnce := by
  rw [itemsFrom] at hvs
  obtain ⟨⟨item, _⟩, hitem, hmore⟩ := bind_eq_ok.1 hvs
  dsimp only at hmore
  split at hmore
  · obtain ⟨rfl, -⟩ := Prod.mk.inj (Except.ok.inj hmore)
    exact List.forall_mem_singleton.2 (h.value hitem)
  · obtain ⟨⟨items, _⟩, hitems, hpure⟩ := bind_eq_ok.1 hmore
    obtain ⟨rfl, -⟩ := Prod.mk.inj (Except.ok.inj hpure)
    exact List.forall_mem_cons.2 ⟨h.value hitem, h.items hitems⟩
  · cases hmore

theorem ReadsOnce.members_succ {fuel : Nat} (h : ReadsOnce fuel) {ms : List (String × Json)}
    (hms : membersFrom (fuel + 1) cs = .ok (ms, rest)) : ∀ p ∈ ms, p.2.NamesOnce := by
  rw [membersFrom.eq_def] at hms
  dsimp only at hms
  split at hms
  · obtain ⟨⟨name, _⟩, -, hcolon⟩ := bind_eq_ok.1 hms
    dsimp only at hcolon
    split at hcolon
    · obtain ⟨⟨v, _⟩, hvalue, hmore⟩ := bind_eq_ok.1 hcolon
      dsimp only at hmore
      split at hmore
      · obtain ⟨rfl, -⟩ := Prod.mk.inj (Except.ok.inj hmore)
        exact List.forall_mem_singleton.2 (h.value hvalue)
      · obtain ⟨⟨members, _⟩, hmembers, hpure⟩ := bind_eq_ok.1 hmore
        obtain ⟨rfl, -⟩ := Prod.mk.inj (Except.ok.inj hpure)
        exact List.forall_mem_cons.2 ⟨h.value hvalue, h.members hmembers⟩
      · cases hmore
    · cases hcolon
  · cases hms

theorem readsOnce (fuel : Nat) : ReadsOnce fuel := by
  induction fuel with
  | zero => exact ⟨nofun, nofun, nofun⟩
  | succ fuel ih => exact ⟨ih.value_succ, ih.items_succ, ih.members_succ⟩

end Reader

/-- **A value that is read has no object with one name twice.** -/
theorem namesOnce_of_read {s : String} {v : Json} (h : Json.read s = .ok v) : v.NamesOnce := by
  unfold Json.read at h
  dsimp only at h
  split at h
  · cases h
  · next hvalue =>
    split at h
    · obtain rfl := Except.ok.inj h
      exact (Reader.readsOnce _).value hvalue
    · cases h

end Json

end ApiSnippets
