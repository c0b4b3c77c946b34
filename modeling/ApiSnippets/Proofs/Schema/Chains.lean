import ApiSnippets.Proofs.Schema.Flaws
/-!
# Chains of references

A value that is a reference stands for the value it points at, which may be a
reference again. `Leads` counts the references between two values, and a chain
is followed as far as the limit allows: a value behind exactly so many
references is still found, one more is too many, and a chain that comes back to
where it has been is too long for every limit (`deref_follows_chains`).
-/

namespace ApiSnippets

namespace Pointer

variable {root v w u : Doc} {m n : Nat}

/-! ## Chains -/

theorem Leads.trans (h : Leads root m v w) (h' : Leads root n w u) : Leads root (m + n) v u := by
  induction h with
  | here v => rwa [Nat.zero_add]
  | next hr ht _ ih =>
    rw [Nat.succ_add]
    exact .next hr ht (ih h')

/-- A chain has a value after each number of references. -/
theorem Leads.split (h : Leads root (m + n) v w) :
    ∃ u, Leads root m v u ∧ Leads root n u w := by
  induction m generalizing v with
  | zero =>
    rw [Nat.zero_add] at h
    exact ⟨v, .here v, h⟩
  | succ m ih =>
    rw [Nat.succ_add] at h
    cases h with
    | next hr ht h =>
      obtain ⟨u, hu, hw⟩ := ih h
      exact ⟨u, .next hr ht hu, hw⟩

/-- A value with a chain after it is a reference. -/
theorem Leads.exists_ref (h : Leads root (n + 1) v w) : ∃ r, v.get? key = some (.text r) := by
  cases h with
  | next hr _ _ => exact ⟨_, hr⟩

/-- A chain that comes back can be gone through as often as one likes. -/
theorem Leads.again (h : Leads root n v v) (times : Nat) : Leads root (times * n) v v := by
  induction times with
  | zero =>
    rw [Nat.zero_mul]
    exact .here v
  | succ times ih =>
    rw [Nat.succ_mul]
    exact ih.trans h

/-! ## Following a chain -/

/-- What is no reference stands for itself. -/
theorem deref_of_get?_none (h : v.get? key = none) (root : Doc) (limit : Nat) :
    deref root limit v = .ok v := by
  rw [deref.eq_def]
  simp only [h]

/-- **Following goes along the chain**: after so many references the limit is
lower by as much. -/
theorem deref_of_leads (h : Leads root n v w) (limit : Nat) :
    deref root (n + limit) v = deref root limit w := by
  induction h with
  | here v => rw [Nat.zero_add]
  | next hr ht _ ih =>
    rw [Nat.succ_add, deref, hr]
    show resolve _ root >>= _ = _
    rw [ht]
    exact ih

/-- No reference is followed any more once the limit is reached. -/
theorem deref_of_ref {limit : Nat} {ref : Doc} (h : Leads root limit v w)
    (href : w.get? key = some ref) :
    deref root limit v = .error (.index (.longChain ref.asText)) := by
  have hend : deref root 0 w = .error (.index (.longChain ref.asText)) := by rw [deref, href]
  rw [← hend]
  exact deref_of_leads h 0

/-- A value that is found stands at the end of a chain. The induction is on the
limit, and each step of it is a reference. -/
theorem leads_of_deref {limit : Nat} (h : deref root limit v = .ok w) :
    ∃ n ≤ limit, Leads root n v w ∧ w.get? key = none := by
  induction limit generalizing v with
  | zero =>
    rw [deref] at h
    split at h
    · next hnone =>
      obtain rfl := Except.ok.inj h
      exact ⟨0, Nat.le_refl 0, .here v, hnone⟩
    · cases h
  | succ limit ih =>
    rw [deref] at h
    split at h
    · next hnone =>
      obtain rfl := Except.ok.inj h
      exact ⟨0, Nat.zero_le _, .here v, hnone⟩
    · next ref href =>
      obtain ⟨r, hr, hresolve⟩ := Outcome.bind_eq_ok.1 h
      obtain ⟨next, hnext, hrest⟩ := Outcome.bind_eq_ok.1 hresolve
      obtain rfl := refText_eq_ok.1 hr
      obtain ⟨n, hn, hleads, hend⟩ := ih hrest
      exact ⟨n + 1, Nat.succ_le_succ hn, .next href hnext hleads, hend⟩

/-- A longer chain than the limit allows has a reference where following
stops. -/
theorem deref_of_longer {limit : Nat} (hn : limit < n) (h : Leads root n v w) :
    ∃ ref, deref root limit v = .error (.index (.longChain ref)) := by
  obtain ⟨more, rfl⟩ := Nat.exists_eq_add_of_lt hn
  obtain ⟨u, hu, hrest⟩ := Leads.split (m := limit) (n := more + 1) h
  obtain ⟨r, hr⟩ := hrest.exists_ref
  exact ⟨_, deref_of_ref hu hr⟩

/-- **Chains are followed up to the limit.** A value is found exactly when it is
no reference and at most so many references lead to it; it stands for itself
from then on. Where there is still a reference after so many, following ends
with a chain that is too long, and the message names this reference; so it does
with every chain that goes on for longer, and with every one that comes back to
a value it has led to before. -/
theorem deref_follows_chains (root v : Doc) (limit : Nat) :
    (∀ w, deref root limit v = .ok w ↔
      ∃ n ≤ limit, Leads root n v w ∧ w.get? key = none) ∧
    (∀ w, deref root limit v = .ok w →
      w.get? key = none ∧ ∀ limit', deref root limit' w = .ok w) ∧
    (∀ w ref, Leads root limit v w → w.get? key = some ref →
      deref root limit v = .error (.index (.longChain ref.asText))) ∧
    (∀ n w, limit < n → Leads root n v w →
      ∃ ref, deref root limit v = .error (.index (.longChain ref))) ∧
    ∀ m n w, Leads root m v w → 0 < n → Leads root n w w →
      ∃ ref, deref root limit v = .error (.index (.longChain ref)) := by
  refine ⟨fun w => ⟨leads_of_deref, ?_⟩, fun w h => ?_, fun w ref => deref_of_ref,
    fun n w => deref_of_longer, fun m n w hm hn hcycle => ?_⟩
  · rintro ⟨n, hn, hleads, hend⟩
    obtain ⟨rest, rfl⟩ := Nat.exists_eq_add_of_le hn
    rw [deref_of_leads hleads, deref_of_get?_none hend]
  · obtain ⟨-, -, -, hend⟩ := leads_of_deref h
    exact ⟨hend, deref_of_get?_none hend root⟩
  · -- once around for each reference the limit allows, and once more
    refine deref_of_longer ?_ (hm.trans (hcycle.again (limit + 1)))
    have hrounds : limit + 1 ≤ (limit + 1) * n := Nat.le_mul_of_pos_right _ hn
    omega

/-- A document with a chain of two references and with two references to each
other. -/
def chainedDocument : Doc :=
  .map [(.text "first", .map [(.text "$ref", .text "#/second")]),
    (.text "second", .map [(.text "$ref", .text "#/third")]),
    (.text "third", .text "found"),
    (.text "there", .map [(.text "$ref", .text "#/back")]),
    (.text "back", .map [(.text "$ref", .text "#/there")])]

theorem deref_follows_chains_both :
    deref chainedDocument 2 (.map [(.text "$ref", .text "#/second")]) = .ok (.text "found") ∧
    deref chainedDocument 1 (.map [(.text "$ref", .text "#/second")]) =
      .error (.index (.longChain "#/third")) ∧
    ∃ ref, deref chainedDocument chainLimit (.map [(.text "$ref", .text "#/there")]) =
      .error (.index (.longChain ref)) := by
  have hsecond : Leads chainedDocument 1 (.map [(.text "$ref", .text "#/second")])
      (.map [(.text "$ref", .text "#/third")]) :=
    .next rfl rfl (.here _)
  have hthird : Leads chainedDocument 1 (.map [(.text "$ref", .text "#/third")])
      (.text "found") :=
    .next rfl rfl (.here _)
  have hcycle : Leads chainedDocument 2 (.map [(.text "$ref", .text "#/there")])
      (.map [(.text "$ref", .text "#/there")]) :=
    .next rfl rfl (.next rfl rfl (.here _))
  exact ⟨((deref_follows_chains _ _ 2).1 _).2 ⟨2, Nat.le_refl 2, hsecond.trans hthird, rfl⟩,
    (deref_follows_chains _ _ 1).2.2.1 _ _ hsecond rfl,
    (deref_follows_chains _ _ chainLimit).2.2.2.2 0 2 _ (.here _) (by decide) hcycle⟩

end Pointer

end ApiSnippets
