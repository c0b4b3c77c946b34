import ApiSnippets.Proofs.Entries
import ApiSnippets.Registry
/-!
# A registry over time

A registry is asked again and again, and what it is asked from may fail one
time and succeed the next. A session is such a sequence, with the factories
that were called for every answer. Until the cell that serves a version has
given a value, each `get` calls its factory once and answers with the outcome;
from then on that value is the answer and the factory rests
(`session_builds_once`). A cell is told by the version in lower case, or it is
that of the override; its factory is called for no other one.
-/

namespace ApiSnippets

variable {S A W : Type}

/-! ## Calls of factories -/

/-- A call of a factory: the source it was given, and what came of it. -/
structure Build (S A : Type) where
  source : S
  result : Outcome A

/-- A factory that writes its calls down. -/
def recorded (build : S → W → Outcome A × W) (source : S) (w : W × List (Build S A)) :
    Outcome A × W × List (Build S A) :=
  let (result, after) := build source w.1
  (result, after, w.2 ++ [⟨source, result⟩])

/-! ## Cells -/

namespace Cell

variable {build : S → W → Outcome A × W} {c : Cell S A} {w : W}

/-- A cell with a value gives it, without its factory. -/
theorem get_of_value {a : A} (h : c.value = some a) : c.get build w = (.ok a, c, w) := by
  rw [get, h]

/-- **A cell without a value calls its factory**, and keeps the outcome when
it is a value. -/
theorem get_of_empty (h : c.value = none) :
    c.get build w = ((build c.source w).1, ⟨c.source, (build c.source w).1.toOption⟩,
      (build c.source w).2) := by
  obtain ⟨source, value⟩ := c
  obtain rfl : value = none := h
  simp only [get]
  split
  · next a after hbuild => simp [hbuild, Except.toOption]
  · next e after hbuild => simp [hbuild, Except.toOption]

end Cell

namespace Registry

/-! ## Cells by version -/

/-- The cell that serves a version. -/
def cell? (r : Registry S A) (version : String) : Option (Cell S A) :=
  match r.override with
  | some c => some c
  | none => Entries.get? r.cells (Text.lower version)

/-- The value that the cell for a version has. -/
def held? (r : Registry S A) (version : String) : Option A :=
  (r.cell? version).bind (·.value)

/-- Whether two versions are served by one cell. -/
def shares (r : Registry S A) (u v : String) : Bool :=
  r.hasOverride || Text.sameLetters u v

/-- The registry with another cell for a version. -/
def withCell (r : Registry S A) (version : String) (c : Cell S A) : Registry S A :=
  match r.override with
  | some _ => { r with override := some c }
  | none => { r with cells := Entries.put (Text.lower version) c r.cells }

variable {build : S → W → Outcome A × W} {r : Registry S A} {c : Cell S A} {w : W} {u v : String}

theorem supports_eq : r.supports v = (r.cell? v).isSome := by
  cases h : r.override with
  | some c => simp [supports, hasOverride, cell?, h]
  | none => simp [supports, hasOverride, cell?, h, Entries.has]

theorem get_of_cell (h : r.cell? v = some c) :
    r.get build v w =
      ((c.get build w).1, r.withCell v (c.get build w).2.1, (c.get build w).2.2) := by
  cases hover : r.override with
  | some o =>
    obtain rfl : o = c := by simpa [cell?, hover] using h
    simp only [get, withCell, hover]
  | none =>
    have hget : Entries.get? r.cells (Text.lower v) = some c := by simpa [cell?, hover] using h
    simp only [get, withCell, hover, hget]

theorem get_of_no_cell (h : r.cell? v = none) :
    r.get build v w = (.error (.version v r.versions), r, w) := by
  cases hover : r.override with
  | some o => simp [cell?, hover] at h
  | none =>
    have hget : Entries.get? r.cells (Text.lower v) = none := by simpa [cell?, hover] using h
    simp only [get, hover, hget]

/-! A new cell changes what it is put for and nothing else. -/

theorem hasOverride_withCell : (r.withCell v c).hasOverride = r.hasOverride := by
  cases h : r.override <;> simp [withCell, hasOverride, h]

theorem cell?_withCell : (r.withCell v c).cell? u = if r.shares u v then some c else r.cell? u := by
  cases h : r.override with
  | some o => simp [withCell, cell?, shares, hasOverride, h]
  | none =>
    simp only [withCell, cell?, shares, hasOverride, h, Entries.get?_put, Option.isSome_none,
      Bool.false_or, Text.sameLetters]

theorem held?_withCell :
    (r.withCell v c).held? u = if r.shares u v then c.value else r.held? u := by
  rw [held?, cell?_withCell]
  split
  · rfl
  · rfl

theorem versions_withCell (h : (r.cell? v).isSome) : (r.withCell v c).versions = r.versions := by
  cases hover : r.override with
  | some o => simp [withCell, versions, hover]
  | none =>
    have hkeys : Entries.keys (Entries.put (Text.lower v) c r.cells) = Entries.keys r.cells := by
      rcases Entries.put_cases (Text.lower v) c r.cells with
        ⟨before, k, o, after, hcells, -, hput⟩ | ⟨hnew, -⟩
      · rw [hput, hcells]
        simp [Entries.keys]
      · rw [cell?, hover, Entries.isSome_get?_iff] at h
        obtain ⟨e, he, hkey⟩ := List.mem_map.1 h
        have hne := hnew e he
        simp [hkey] at hne
    simp only [withCell, versions, hover, hkeys]

/-! ## Sessions -/

/-- What can be asked of a registry. -/
inductive Ask where
  | get (version : String)
  | supports (version : String)
  | versions
  deriving DecidableEq, Repr

/-- What a registry answers. -/
inductive Answer (A : Type) where
  | value (result : Outcome A)
  | truth (b : Bool)
  | names (versions : List String)

/-- A question with its answer, and the calls of factories in between. -/
structure Event (S A : Type) where
  ask : Ask
  answer : Answer A
  builds : List (Build S A) := []

/-- A question answered, with the registry and its surroundings afterwards. -/
def respond (build : S → W → Outcome A × W) (r : Registry S A) (w : W) :
    Ask → Event S A × Registry S A × W
  | .get version =>
    let (result, after, surroundings) := r.get build version w
    let (_, _, _, builds) := r.get (recorded build) version (w, [])
    (⟨.get version, .value result, builds⟩, after, surroundings)
  | .supports version => ({ ask := .supports version, answer := .truth (r.supports version) }, r, w)
  | .versions => ({ ask := .versions, answer := .names r.versions }, r, w)

/-- **What happens** when questions are asked in turn. -/
def session (build : S → W → Outcome A × W) : Registry S A → W → List Ask → List (Event S A)
  | _, _, [] => []
  | r, w, ask :: asks =>
    let (e, r, w) := respond build r w ask
    e :: session build r w asks

variable {a b : A} {ask : Ask} {asks : List Ask} {e : Event S A} {earlier : List (Event S A)}

theorem ask_respond : (respond build r w ask).1.ask = ask := by
  cases ask <;> rfl

theorem respond_get_of_no_cell (h : r.cell? v = none) : respond build r w (.get v) =
    (⟨.get v, .value (.error (.version v r.versions)), []⟩, r, w) := by
  simp only [respond, get_of_no_cell h]

theorem respond_get_of_value (h : r.cell? v = some c) (hvalue : c.value = some a) :
    respond build r w (.get v) = (⟨.get v, .value (.ok a), []⟩, r.withCell v c, w) := by
  simp only [respond, get_of_cell h, Cell.get_of_value hvalue]

theorem respond_get_of_empty (h : r.cell? v = some c) (hvalue : c.value = none) :
    respond build r w (.get v) =
      (⟨.get v, .value (build c.source w).1, [⟨c.source, (build c.source w).1⟩]⟩,
        r.withCell v ⟨c.source, (build c.source w).1.toOption⟩, (build c.source w).2) := by
  simp only [respond, get_of_cell h, Cell.get_of_empty hvalue, recorded, List.nil_append]

/-! ## What is known of a cell -/

/-- An event in which the cell for a version gave a value. -/
def Gives (r : Registry S A) (version : String) (a : A) (e : Event S A) : Prop :=
  ∃ u, e.ask = .get u ∧ r.shares u version = true ∧ e.answer = .value (.ok a)

/-- A value that the cell for a version had at first, or gave since. -/
def Known (r : Registry S A) (earlier : List (Event S A)) (version : String) (a : A) : Prop :=
  r.held? version = some a ∨ ∃ d ∈ earlier, r.Gives version a d

theorem shares_comm : r.shares u v = r.shares v u := by
  simp only [shares, Text.sameLetters, BEq.comm]

theorem cell?_of_shares (h : r.shares u v = true) : r.cell? u = r.cell? v := by
  cases hover : r.override with
  | some o => simp [cell?, hover]
  | none =>
    have hlower : Text.lower u = Text.lower v := by
      simpa [shares, hasOverride, hover, Text.sameLetters] using h
    simp only [cell?, hover, hlower]

theorem known_append : r.Known (earlier ++ [e]) v a ↔ r.Known earlier v a ∨ r.Gives v a e := by
  simp only [Known, List.mem_append, List.mem_singleton, or_and_right, exists_or, exists_eq_left,
    or_assoc]

/-! ## One question -/

/-- A registry that has grown out of another one in the course of events: it
serves the same versions from the same sources, and its cells hold the values
that are known. -/
structure Remembers (first : Registry S A) (earlier : List (Event S A)) (r : Registry S A) :
    Prop where
  hasOverride : r.hasOverride = first.hasOverride
  versions : r.versions = first.versions
  source : ∀ v, (r.cell? v).map (·.source) = (first.cell? v).map (·.source)
  held : ∀ v a, r.held? v = some a ↔ first.Known earlier v a

/-- An event as it has to be after earlier ones, for a registry that they
began with. -/
structure Faithful (build : S → W → Outcome A × W) (first : Registry S A)
    (earlier : List (Event S A)) (e : Event S A) : Prop where
  supports : ∀ v, e.ask = .supports v → e.answer = .truth (first.supports v) ∧ e.builds = []
  versions : e.ask = .versions → e.answer = .names first.versions ∧ e.builds = []
  /-- A version that is not supported is refused. -/
  refused : ∀ v, e.ask = .get v → first.supports v = false →
    e.answer = .value (.error (.version v first.versions)) ∧ e.builds = []
  /-- A known value is given again. -/
  kept : ∀ v a, e.ask = .get v → first.Known earlier v a →
    e.answer = .value (.ok a) ∧ e.builds = []
  /-- Without a known value the factory of the cell is called once. -/
  built : ∀ v c, e.ask = .get v → first.cell? v = some c → (∀ a, ¬ first.Known earlier v a) →
    ∃ result, (∃ w, result = (build c.source w).1) ∧ e.answer = .value result ∧
      e.builds = [⟨c.source, result⟩]

variable {first : Registry S A}

/-- A version that is supported gets a known value or what a factory gives. -/
theorem Faithful.value_or_build (h : Faithful build first earlier e) (hask : e.ask = .get v)
    (hsupported : first.supports v ≠ false) :
    (∃ a, e.answer = .value (.ok a) ∧ e.builds = []) ∨
      ∃ s result, (∃ w, result = (build s w).1) ∧ e.answer = .value result ∧
        e.builds = [⟨s, result⟩] := by
  rw [supports_eq, Bool.ne_false_iff, Option.isSome_iff_exists] at hsupported
  obtain ⟨c, hc⟩ := hsupported
  by_cases hknown : ∃ a, first.Known earlier v a
  · obtain ⟨a, ha⟩ := hknown
    exact .inl ⟨a, h.kept v a hask ha⟩
  · exact .inr ⟨c.source, h.built v c hask hc (not_exists.1 hknown)⟩

/-- **A version is refused without a call** exactly when it is not supported. -/
theorem Faithful.refused_iff (h : Faithful build first earlier e) (hask : e.ask = .get v) :
    (∃ configured, e.answer = .value (.error (.version v configured))) ∧ e.builds = [] ↔
      first.supports v = false := by
  constructor
  · rintro ⟨⟨configured, hanswer⟩, hbuilds⟩
    by_contra hsupported
    rcases h.value_or_build hask hsupported with ⟨a, ha, -⟩ | ⟨s, result, -, -, hcalled⟩
    · simp [ha] at hanswer
    · simp [hcalled] at hbuilds
  · intro hunsupported
    obtain ⟨hanswer, hbuilds⟩ := h.refused v hask hunsupported
    exact ⟨⟨_, hanswer⟩, hbuilds⟩

/-- Where no factory refuses the version itself, every refusal is one without a
call. -/
theorem Faithful.refused_iff_of_build (h : Faithful build first earlier e) (hask : e.ask = .get v)
    (hbuild : ∀ s w configured, (build s w).1 ≠ .error (.version v configured)) :
    (∃ configured, e.answer = .value (.error (.version v configured))) ↔
      first.supports v = false := by
  refine ⟨?_, fun hunsupported => ((h.refused_iff hask).2 hunsupported).1⟩
  rintro ⟨configured, hanswer⟩
  by_contra hsupported
  rcases h.value_or_build hask hsupported with ⟨a, ha, -⟩ | ⟨s, result, ⟨w, hresult⟩, hvalue, -⟩
  · simp [ha] at hanswer
  · obtain rfl : result = .error (.version v configured) := by simpa [hvalue] using hanswer
    exact hbuild s w configured hresult.symm

theorem remembers_self : Remembers r [] r where
  hasOverride := rfl
  versions := rfl
  source _ := rfl
  held v a := by simp [Known]

namespace Remembers

theorem shares (h : Remembers first earlier r) : r.shares u v = first.shares u v := by
  simp only [Registry.shares, h.hasOverride]

theorem supports (h : Remembers first earlier r) : r.supports v = first.supports v := by
  have hsource := congrArg Option.isSome (h.source v)
  simpa [supports_eq] using hsource

/-- An event in which no cell gives a value changes nothing. -/
theorem append (h : Remembers first earlier r) (he : ∀ v a, ¬ first.Gives v a e) :
    Remembers first (earlier ++ [e]) r where
  hasOverride := h.hasOverride
  versions := h.versions
  source := h.source
  held v a := by
    rw [h.held, known_append]
    exact ⟨.inl, fun hor => hor.resolve_right (he v a)⟩

/-- A cell that was asked holds what it gave. -/
theorem withCell {o : Option A} (h : Remembers first earlier r) (hc : r.cell? v = some c)
    (hask : e.ask = .get v) (hkept : ∀ a, c.value = some a → o = some a)
    (hanswer : ∀ a, e.answer = .value (.ok a) ↔ o = some a) :
    Remembers first (earlier ++ [e]) (r.withCell v ⟨c.source, o⟩) where
  hasOverride := hasOverride_withCell.trans h.hasOverride
  versions := (versions_withCell (by simp [hc])).trans h.versions
  source u := by
    rw [cell?_withCell, ← h.source u]
    split
    · next hshares => simp [cell?_of_shares hshares, hc]
    · rfl
  held u a := by
    have hgives : first.Gives u a e ↔ first.shares u v = true ∧ o = some a := by
      constructor
      · rintro ⟨x, hx, hshares, ha⟩
        obtain rfl : v = x := Ask.get.inj (hask.symm.trans hx)
        exact ⟨shares_comm.trans hshares, (hanswer a).1 ha⟩
      · rintro ⟨hshares, ho⟩
        exact ⟨v, hask, shares_comm.trans hshares, (hanswer a).2 ho⟩
    rw [held?_withCell, h.shares, known_append, hgives, ← h.held]
    split
    · next hshares =>
      -- the cell that was asked serves this version too, and keeps a value it had
      have hcu : r.cell? u = some c := (cell?_of_shares (h.shares.trans hshares)).trans hc
      constructor
      · intro ho
        exact .inr ⟨hshares, ho⟩
      · rintro (hbefore | ⟨-, ho⟩)
        · exact hkept a (by simpa [held?, hcu] using hbefore)
        · exact ho
    · next hshares => simp [hshares]

theorem supports_of_cell (h : Remembers first earlier r) (hc : r.cell? v = some c) :
    first.supports v = true := by
  rw [← h.supports, supports_eq, hc, Option.isSome_some]

/-- What is known of a cell is what it holds. -/
theorem known_iff (h : Remembers first earlier r) (hc : r.cell? v = some c) :
    first.Known earlier v a ↔ c.value = some a := by
  rw [← h.held, held?, hc, Option.bind_some]

/-- A refusal is as it has to be where there is no cell. -/
theorem faithful_of_no_cell (h : Remembers first earlier r) (hc : r.cell? v = none) :
    Faithful build first earlier ⟨.get v, .value (.error (.version v r.versions)), []⟩ := by
  have hnone : first.cell? v = none := by simpa [hc] using (h.source v).symm
  refine ⟨by simp, by simp, ?_, ?_, ?_⟩
  · rintro u ⟨⟩ -
    exact ⟨by rw [h.versions], rfl⟩
  · rintro u a ⟨⟩ hknown
    have hheld : r.held? v = some a := (h.held v a).2 hknown
    simp [held?, hc] at hheld
  · rintro u d ⟨⟩ hd
    simp [hnone] at hd

/-- The value of a cell is as it has to be. -/
theorem faithful_of_value (h : Remembers first earlier r) (hc : r.cell? v = some c)
    (hvalue : c.value = some a) :
    Faithful build first earlier ⟨.get v, .value (.ok a), []⟩ := by
  refine ⟨by simp, by simp, ?_, ?_, ?_⟩
  · rintro u ⟨⟩ hu
    simp [h.supports_of_cell hc] at hu
  · rintro u b ⟨⟩ hknown
    obtain rfl : a = b := Option.some.inj (hvalue.symm.trans ((h.known_iff hc).1 hknown))
    exact ⟨rfl, rfl⟩
  · rintro u d ⟨⟩ - hunknown
    exact absurd ((h.known_iff hc).2 hvalue) (hunknown a)

/-- One call of its factory is as it has to be for a cell without a value. -/
theorem faithful_of_empty (h : Remembers first earlier r) (hc : r.cell? v = some c)
    (hvalue : c.value = none) (w : W) :
    Faithful build first earlier
      ⟨.get v, .value (build c.source w).1, [⟨c.source, (build c.source w).1⟩]⟩ := by
  refine ⟨by simp, by simp, ?_, ?_, ?_⟩
  · rintro u ⟨⟩ hu
    simp [h.supports_of_cell hc] at hu
  · rintro u b ⟨⟩ hknown
    have hb : c.value = some b := (h.known_iff hc).1 hknown
    simp [hvalue] at hb
  · rintro u d ⟨⟩ hd -
    have hsource : c.source = d.source := by simpa [hc, hd] using h.source v
    exact ⟨_, ⟨w, by rw [hsource]⟩, rfl, by rw [hsource]⟩

/-- **One question.** It is answered as the earlier events want it, and the
registry remembers it. -/
theorem respond (h : Remembers first earlier r) (build : S → W → Outcome A × W) (w : W)
    (ask : Ask) : Faithful build first earlier (respond build r w ask).1 ∧
      Remembers first (earlier ++ [(respond build r w ask).1]) (respond build r w ask).2.1 := by
  cases ask with
  | supports v =>
    refine ⟨⟨?_, ?_, ?_, ?_, ?_⟩, h.append ?_⟩
    · rintro u ⟨⟩
      exact ⟨by rw [← h.supports]; rfl, rfl⟩
    all_goals simp [Registry.respond, Gives]
  | versions =>
    refine ⟨⟨?_, ?_, ?_, ?_, ?_⟩, h.append ?_⟩
    · simp [Registry.respond]
    · intro _
      exact ⟨by rw [← h.versions]; rfl, rfl⟩
    all_goals simp [Registry.respond, Gives]
  | get v =>
    -- a value is built only for a cell without one, and kept when there is one
    cases hc : r.cell? v with
    | none =>
      rw [respond_get_of_no_cell hc]
      exact ⟨h.faithful_of_no_cell hc, h.append (by simp [Gives])⟩
    | some c =>
      cases hvalue : c.value with
      | some a =>
        rw [respond_get_of_value hc hvalue]
        refine ⟨h.faithful_of_value hc hvalue, ?_⟩
        obtain ⟨source, value⟩ := c
        obtain rfl : value = some a := hvalue
        exact h.withCell hc rfl (fun b hb => hb) (by simp)
      | none =>
        rw [respond_get_of_empty hc hvalue]
        refine ⟨h.faithful_of_empty hc hvalue w, ?_⟩
        refine h.withCell hc rfl (by simp [hvalue]) fun b => ?_
        cases hbuild : (build c.source w).1 with
        | error e => simp [Except.toOption]
        | ok a => simp [Except.toOption]

end Remembers

/-! ## All questions -/

/-- **Every event of a session is as the earlier ones want it.** -/
theorem faithful_session {w : W} {before after : List (Event S A)}
    (h : Remembers first earlier r) (hs : session build r w asks = before ++ e :: after) :
    Faithful build first (earlier ++ before) e := by
  -- on the questions: each event joins the earlier ones before the next is asked
  induction asks generalizing earlier r w before with
  | nil => simp [session] at hs
  | cons ask asks ih =>
    obtain ⟨hfaithful, hnext⟩ := h.respond build w ask
    have hs' : (respond build r w ask).1 :: session build (respond build r w ask).2.1
        (respond build r w ask).2.2 asks = before ++ e :: after := hs
    cases before with
    | nil =>
      obtain ⟨rfl, -⟩ := List.cons.inj hs'
      rwa [List.append_nil]
    | cons d before =>
      obtain ⟨rfl, hrest⟩ := List.cons.inj hs'
      have hlater := ih hnext hrest
      rwa [List.append_assoc] at hlater

theorem map_ask_session : (session build r w asks).map Event.ask = asks := by
  induction asks generalizing r w with
  | nil => rfl
  | cons ask asks ih =>
    have hs : session build r w (ask :: asks) = (respond build r w ask).1 ::
        session build (respond build r w ask).2.1 (respond build r w ask).2.2 asks := rfl
    rw [hs, List.map_cons, ask_respond, ih]

/-! ## Registries of sources -/

/-- The source that serves a version: that of the override, or the last one
that is listed for the version, in whatever letter case. -/
def sourceFor (sources : List (String × S)) (override : Option S) (version : String) : Option S :=
  override.or ((sources.reverse.find? fun p => Text.sameLetters version p.1).map Prod.snd)

theorem cell?_ofSources (sources : List (String × S)) (override : Option S) (version : String) :
    (ofSources sources override : Registry S A).cell? version =
      (sourceFor sources override version).map fun s => ⟨s, none⟩ := by
  cases override with
  | some s => rfl
  | none =>
    -- a later source is found first, so the list is looked through from its end
    have hlookup : ∀ ps : List (String × S),
        (ps.map fun p => (Text.lower p.1, (⟨p.2, none⟩ : Cell S A))).lookup (Text.lower version) =
          (ps.find? fun p => Text.sameLetters version p.1).map fun p => ⟨p.2, none⟩ := by
      intro ps
      induction ps with
      | nil => rfl
      | cons p ps ih =>
        rw [List.map_cons, List.lookup_cons, List.find?_cons, ih, Text.sameLetters]
        cases Text.lower version == Text.lower p.1 <;> rfl
    simp only [cell?, ofSources, Option.map_none, Entries.get?_ofPairs, sourceFor, Option.none_or,
      Option.map_map, ← List.map_reverse, hlookup]
    rfl

/-- **A cell is built once, and failures are not kept.** In a session with a
registry of sources, a version that is not supported is refused and no factory
is called; no other version is refused, unless a factory itself fails that
way. A version whose cell has given no value yet has the factory of that cell
called once, for the source of the override when there is one; a value that
was given is given again, and no factory is called. Two versions have the same
cell when they differ in letter case at most, or when there is an override. -/
theorem session_builds_once (build : S → W → Outcome A × W) (sources : List (String × S))
    (override : Option S) (w : W) (asks : List Ask) :
    let r : Registry S A := ofSources sources override
    (session build r w asks).map Event.ask = asks ∧
      (∀ u v, r.shares u v = true ↔ override.isSome = true ∨ Text.lower u = Text.lower v) ∧
      (∀ v, r.supports v = (sourceFor sources override v).isSome) ∧
      (∀ s, override = some s → ∀ v, sourceFor sources override v = some s) ∧
      ∀ before e after, session build r w asks = before ++ e :: after →
        (∀ v, e.ask = .supports v → e.answer = .truth (r.supports v) ∧ e.builds = []) ∧
        (e.ask = .versions → e.answer = .names r.versions ∧ e.builds = []) ∧
        ∀ v, e.ask = .get v →
          ((∃ configured, e.answer = .value (.error (.version v configured))) ∧ e.builds = [] ↔
            r.supports v = false) ∧
          ((∀ s w configured, (build s w).1 ≠ .error (.version v configured)) →
            ((∃ configured, e.answer = .value (.error (.version v configured))) ↔
              r.supports v = false)) ∧
          (∀ s, sourceFor sources override v = some s → (∀ d ∈ before, ∀ a, ¬ r.Gives v a d) →
            ∃ result, (∃ surroundings, result = (build s surroundings).1) ∧
              e.answer = .value result ∧ e.builds = [⟨s, result⟩]) ∧
          ∀ a, (∃ d ∈ before, r.Gives v a d) → e.answer = .value (.ok a) ∧ e.builds = [] := by
  intro r
  have hcell : ∀ v, r.cell? v = (sourceFor sources override v).map fun s => ⟨s, none⟩ :=
    cell?_ofSources sources override
  have hsupports : ∀ v, r.supports v = (sourceFor sources override v).isSome := by
    intro v
    rw [supports_eq, hcell, Option.isSome_map]
  -- nothing is known before the session, so what is known was given in it
  have hknown : ∀ before v a, r.Known before v a ↔ ∃ d ∈ before, r.Gives v a d := by
    intro before v a
    have hheld : r.held? v = none := by
      rw [held?, hcell]
      cases sourceFor sources override v <;> rfl
    simp [Known, hheld]
  refine ⟨map_ask_session, ?_, hsupports, ?_, ?_⟩
  · intro u v
    cases override <;> simp [r, shares, hasOverride, ofSources, Text.sameLetters]
  · rintro s rfl v
    rfl
  · intro before e after hs
    have hfaithful : Faithful build r before e := faithful_session remembers_self hs
    refine ⟨hfaithful.supports, hfaithful.versions, fun v hv => ?_⟩
    refine ⟨hfaithful.refused_iff hv, hfaithful.refused_iff_of_build hv, ?_, ?_⟩
    · intro s hsource hfirst
      have hc : r.cell? v = some ⟨s, none⟩ := by rw [hcell, hsource, Option.map_some]
      refine hfaithful.built v ⟨s, none⟩ hv hc fun a ha => ?_
      obtain ⟨d, hd, hgives⟩ := (hknown before v a).1 ha
      exact hfirst d hd a hgives
    · intro a hgiven
      exact hfaithful.kept v a hv ((hknown before v a).2 hgiven)

/-- A factory whose outcomes are listed in advance. -/
def scripted (_ : String) : List (Outcome Nat) → Outcome Nat × List (Outcome Nat)
  | [] => (.error (.index .noPaths), [])
  | result :: results => (result, results)

/-- The sources of two versions. -/
def twoSources : List (String × String) :=
  [("Beta", "b"), ("V1.0", "a")]

/-- A version asked for whose factory fails. -/
def failedGet : Event String Nat :=
  ⟨.get "v1.0", .value (.error (.index .noPaths)), [⟨"a", .error (.index .noPaths)⟩]⟩

/-- The same version asked for again. -/
def builtGet : Event String Nat :=
  ⟨.get "V1.0", .value (.ok 7), [⟨"a", .ok 7⟩]⟩

/-- And once more. -/
def keptGet : Event String Nat :=
  ⟨.get "v1.0", .value (.ok 7), []⟩

/-- The failure is forgotten and the value is kept. -/
theorem session_builds_once_retried :
    let r : Registry String Nat := ofSources twoSources none
    session scripted r [.error (.index .noPaths), .ok 7, .ok 8]
        [.get "v1.0", .get "V1.0", .get "v1.0"] = [failedGet, builtGet] ++ keptGet :: [] ∧
      keptGet.ask = .get "v1.0" ∧ (∃ d ∈ [failedGet, builtGet], r.Gives "v1.0" 7 d) ∧
      keptGet.answer = .value (.ok 7) ∧ keptGet.builds = [] := by
  intro r
  have hs : session scripted r [.error (.index .noPaths), .ok 7, .ok 8]
      [.get "v1.0", .get "V1.0", .get "v1.0"] = [failedGet, builtGet] ++ keptGet :: [] := rfl
  have hgiven : ∃ d ∈ [failedGet, builtGet], r.Gives "v1.0" 7 d :=
    ⟨builtGet, by simp, "V1.0", rfl, by decide, rfl⟩
  obtain ⟨-, -, -, -, hevents⟩ := session_builds_once scripted twoSources none
    [.error (.index .noPaths), .ok 7, .ok 8] [.get "v1.0", .get "V1.0", .get "v1.0"]
  obtain ⟨-, -, hget⟩ := hevents _ _ _ hs
  obtain ⟨-, -, -, hkept⟩ := hget "v1.0" rfl
  exact ⟨hs, rfl, hgiven, hkept 7 hgiven⟩

end Registry

end ApiSnippets
