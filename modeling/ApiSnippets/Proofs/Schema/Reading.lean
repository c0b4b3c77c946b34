import Mathlib.Order.Nat
import ApiSnippets.Proofs.Recursion
import ApiSnippets.Proofs.Schema.Flaws
/-!
# How far the reading of a schema goes

Reading a schema is a recursion: one level of it (`readLevel`) is a function of
what the calls nested in it result in (`readLevel_congr`). A call is for a part
of the schema, or for what a reference leads to that has not been followed. A
part is less deep, and there are so many references to follow and no more, so
the sizes of the document and of the schema bound how deep calls can be nested
(`reading_iterate`).
-/

namespace ApiSnippets

namespace Doc

variable {root v w : Doc}

theorem IsPart.of_opened_self (h : IsPart v w.opened) : IsPart v w := by
  rcases opened_eq_or_isPart w with he | hp
  · exact he ▸ h
  · exact h.trans hp

theorem isPart_of_step {ref : String} {segment : List Char}
    (h : Pointer.step ref w segment = .ok v) : IsPart v w := by
  refine .of_opened_self ?_
  unfold Pointer.step at h
  dsimp only at h
  split at h
  · next es ho =>
    split at h
    · next u hu =>
      obtain rfl := Except.ok.inj h
      exact ho ▸ isPart_of_entry (field?_mem hu)
    · cases h
  · next items ho =>
    split at h
    · next u hu =>
      obtain rfl := Except.ok.inj h
      obtain ⟨n, -, hn⟩ := Option.bind_eq_some_iff.1 hu
      exact ho ▸ isPart_of_item (Pointer.mem_of_itemAt? hn)
    · cases h
  · cases h

theorem depth_le_of_follow {ref : String} {segments : List (List Char)}
    (h : Pointer.follow ref w segments = .ok v) : v.depth ≤ w.depth := by
  induction segments generalizing w with
  | nil => exact (congrArg depth (Except.ok.inj h)).ge
  | cons segment segments ih =>
    obtain ⟨next, hnext, h⟩ := Outcome.bind_eq_ok.1 h
    exact (ih h).trans (isPart_of_step hnext).1.le

/-- A reference leads to a value no deeper than the document. -/
theorem depth_le_of_resolve {ref : String} (h : Pointer.resolve ref root = .ok v) :
    v.depth ≤ root.depth := by
  unfold Pointer.resolve at h
  split at h
  · exact depth_le_of_follow h
  · cases h

theorem unfollowed_le (root : Doc) (seen : List String) :
    unfollowed root seen ≤ root.refs.length :=
  List.length_filter_le _ _

theorem unfollowed_cons_le (root : Doc) (r : String) (seen : List String) :
    unfollowed root (r :: seen) ≤ unfollowed root seen := by
  rw [unfollowed, unfollowed, ← List.countP_eq_length_filter, ← List.countP_eq_length_filter]
  refine List.countP_mono_left fun s _ hs => ?_
  simp only [List.contains_cons, Bool.not_or, Bool.and_eq_true] at hs
  exact hs.2

/-- How many calls can be nested in reading a schema: as many as it is deep,
and as many as the document is deep for every reference that can still be
followed. A schema from elsewhere can have one that the document does not. -/
def nesting (root : Doc) (p : Doc × List String) : Nat :=
  p.1.depth + ((if isForeign root p.1 then 1 else 0) + unfollowed root p.2) * (root.depth + 1)

theorem nesting_lt_of_isPart {seen : List String} (h : IsPart v w) :
    nesting root (v, seen) < nesting root (w, seen) := by
  have hforeign : (if isForeign root v then 1 else 0) ≤ if isForeign root w then 1 else 0 := by
    cases hw : isForeign root w with
    | true => split <;> simp
    | false =>
      have hv : isForeign root v = false :=
        isForeign_eq_false_iff.2 fun r hr => isForeign_eq_false_iff.1 hw (h.2 hr)
      simp [hv]
  exact Nat.add_lt_add_of_lt_of_le h.1
    (Nat.mul_le_mul_right _ (Nat.add_le_add_right hforeign _))

theorem nesting_lt_of_follow {es : List (Scalar × Doc)} {r : String} {seen : List String}
    (hr : field? Pointer.key es = some (text r)) (hs : r ∉ seen)
    (ht : Pointer.resolve r root = .ok v) :
    nesting root (v, r :: seen) < nesting root (map es, seen) := by
  have htarget : isForeign root v = false := isForeign_eq_false_iff.2 (refs_resolve ht)
  -- a reference of the document is one less to follow, any other the only one
  have hfewer : unfollowed root (r :: seen) + 1 ≤
      (if isForeign root (map es) then 1 else 0) + unfollowed root seen := by
    cases hforeign : isForeign root (map es) with
    | true =>
      have hle := unfollowed_cons_le root r seen
      rw [if_pos rfl]
      omega
    | false =>
      have hmem : r ∈ root.refs :=
        isForeign_eq_false_iff.1 hforeign (mem_refs_of_entry (field?_mem hr))
      have hlt := unfollowed_lt hmem (by simpa using hs)
      rw [if_neg (by simp)]
      omega
  calc nesting root (v, r :: seen)
      = v.depth + unfollowed root (r :: seen) * (root.depth + 1) := by simp [nesting, htarget]
    _ < (root.depth + 1) + unfollowed root (r :: seen) * (root.depth + 1) :=
        Nat.add_lt_add_right (Nat.lt_succ_of_le (depth_le_of_resolve ht)) _
    _ = (unfollowed root (r :: seen) + 1) * (root.depth + 1) := by
        rw [Nat.succ_mul, Nat.add_comm]
    _ ≤ nesting root (map es, seen) :=
        (Nat.mul_le_mul_right _ hfewer).trans (Nat.le_add_left _ _)

end Doc

/-! ## One level of reading a schema -/

namespace Schema

/-- What reading a reference makes of the value it leads to. -/
def referenceLevel (root : Doc) (read : Doc × List String → Outcome Shape) (r : String)
    (seen : List String) : Outcome Shape :=
  if seen.contains r = false then
    match Pointer.resolve r root with
    | .error e => .error e
    | .ok target =>
      match target.opened with
      | .map ts =>
        if isEnum ts then enumShape (Pointer.schemaId? r) false ts
        else if (Pointer.schemaId? r).isSome && isObjectLike ts then
          .ok { kind := .object, typeName := Pointer.schemaId? r, title := titleOf ts,
                nullable := isSet "nullable" ts }
        else read (target, r :: seen)
      | _ => .ok {}
  else .ok { kind := .object, typeName := Pointer.schemaId? r }

/-- What reading makes of the properties of an object. -/
def propertiesLevel (read : Doc → Outcome Shape) (es : Fields) :
    Outcome (List (String × Shape)) :=
  match Doc.field? "properties" es with
  | some v =>
    match v.opened with
    | .map ps => do
      let shapes ← Outcome.mapAll (fun p => do
        let s ← read p.2
        pure (p.1, s)) ps
      namedProperties shapes
    | _ => if v.isTruthy then .error (.defect .part) else .ok []
  | none => .ok []

/-- What reading makes of a schema that is neither a reference nor a
composition. -/
def plainLevel (read : Doc → Outcome Shape) (es : Fields) : Outcome Shape :=
  let nullable := isSet "nullable" es
  if isEnum es then enumShape none nullable es
  else if hasType "array" es then
    match Doc.field? "items" es with
    | some v => do
      let s ← read v
      pure { kind := .array, items := some s, nullable := nullable }
    | none => .ok { kind := .array, items := some {}, nullable := nullable }
  else if hasType "object" es || has "properties" es then do
    let properties ← propertiesLevel read es
    pure { kind := .object, title := titleOf es, properties := properties, nullable := nullable }
  else do
    let kind ← primitiveKind es
    pure { kind := kind, formats := formatOf es, nullable := nullable }

/-- What reading makes of a schema, given the references already followed. -/
def readLevel (root : Doc) (read : Doc × List String → Outcome Shape) :
    Doc × List String → Outcome Shape
  | (.map es, seen) =>
    match Doc.field? Pointer.key es with
    | some (.text r) => referenceLevel root read r seen
    | some v => .error (Pointer.refDefect v)
    | none =>
      match compositionMembers es with
      | .error e => .error e
      | .ok [] => plainLevel (fun v => read (v, seen)) es
      | .ok members => do
        let shapes ← Outcome.mapAll (fun m => read (m, seen))
          (members.filter fun m => !isNullPlaceholder m)
        pure (fold es members shapes)
  | (.loop _ v, seen) => read (v, seen)
  | (.endless, _) => .error (.defect .recursion)
  | _ => .ok {}

/-- A schema is read level by level. -/
theorem shapeFrom_eq_readLevel (root schema : Doc) (seen : List String) :
    shapeFrom root schema seen =
      readLevel root (fun p => shapeFrom root p.1 p.2) (schema, seen) := by
  -- the level has the branches of the walk, in the same order
  cases schema with
  | map es =>
    rw [shapeFrom]
    split
    · next r hr =>
      simp only [readLevel, hr, referenceLevel]
      split
      · split
        · next ht => simp only [ht]
        · next target ht => cases ho : target.opened <;> simp only [ht, ho]
      · rfl
    · next v _ hr => simp only [readLevel, hr]
    · next hr =>
      split
      · next e hm => simp only [readLevel, hr, hm]
      · next first more hm => simp only [readLevel, hr, hm, Outcome.mapMem_eq]
      · next hm =>
        simp only [readLevel, hr, hm, plainLevel, propertiesLevel]
        split
        · rfl
        split
        · split <;> next hi => simp only [hi]
        split
        · split
          · next v hv =>
            simp only [hv]
            split
            · next ho => simp only [ho, Outcome.mapMem_eq, bind_assoc]
            · simp only
              split <;> rfl
          · next hv => simp only [hv]
        · rfl
  | loop id v => rw [shapeFrom, readLevel]
  | _ => simp [shapeFrom, readLevel]

/-! ## The calls of reading a schema -/

/-- The calls nested in reading a schema, with the reference that one
follows. -/
inductive ReadCalls (root : Doc) : Doc × List String → Option String → Doc × List String → Prop
  | follow {es ts : Fields} {r : String} {target : Doc} {seen : List String}
      (hr : Doc.field? Pointer.key es = some (.text r)) (hs : r ∉ seen)
      (ht : Pointer.resolve r root = .ok target) (ho : target.opened = .map ts)
      (henum : isEnum ts = false) (hname : ¬ KeepsName r ts) :
      ReadCalls root (.map es, seen) (some r) (target, r :: seen)
  | member {es : Fields} {ms : List Doc} {m : Doc} {seen : List String}
      (hr : Doc.field? Pointer.key es = none) (hms : compositionMembers es = .ok ms)
      (hm : m ∈ ms) (hnull : isNullPlaceholder m = false) :
      ReadCalls root (.map es, seen) none (m, seen)
  | inside {es : Fields} {v : Doc} {seen : List String} (hp : Plain es) (hv : Inside es v) :
      ReadCalls root (.map es, seen) none (v, seen)
  | loop {id : Nat} {v : Doc} {seen : List String} :
      ReadCalls root (.loop id v, seen) none (v, seen)

variable {root : Doc} {seen : List String} {es : Fields}

theorem referenceLevel_congr {f g : Doc × List String → Outcome Shape} {r : String}
    (hr : Doc.field? Pointer.key es = some (.text r))
    (h : ∀ visit q, ReadCalls root (.map es, seen) visit q → f q = g q) :
    referenceLevel root f r seen = referenceLevel root g r seen := by
  unfold referenceLevel
  split
  · next hs =>
    have hs : r ∉ seen := by simpa using hs
    split
    · rfl
    · next target ht =>
      split
      · next ts ho =>
        split
        · rfl
        · next henum =>
          split
          · rfl
          · next hname =>
            refine h _ _ (.follow hr hs ht ho (by simpa using henum) ?_)
            simpa [KeepsName] using hname
      · rfl
  · rfl

theorem propertiesLevel_congr {f g : Doc → Outcome Shape} (h : ∀ v ps p,
    Doc.field? "properties" es = some v → v.opened = .map ps → p ∈ ps → f p.2 = g p.2) :
    propertiesLevel f es = propertiesLevel g es := by
  unfold propertiesLevel
  split
  · next v hv =>
    split
    · next ps ho =>
      rw [Outcome.mapAll_congr fun p hp => by rw [h v ps p hv ho hp]]
    · rfl
  · rfl

theorem plainLevel_congr {f g : Doc → Outcome Shape} (h : ∀ v, Inside es v → f v = g v) :
    plainLevel f es = plainLevel g es := by
  unfold plainLevel
  dsimp only
  split
  · rfl
  · next henum =>
    rw [Bool.not_eq_true] at henum
    split
    · next harray =>
      split
      · next v hv => rw [h v (.items henum harray hv)]
      · rfl
    · next harray =>
      rw [Bool.not_eq_true] at harray
      rw [propertiesLevel_congr fun v ps p hv ho hp => h _ (.property henum harray hv ho hp)]

/-- A level depends on the calls nested in it alone. -/
theorem readLevel_congr {f g : Doc × List String → Outcome Shape} {p : Doc × List String}
    (h : ∀ visit q, ReadCalls root p visit q → f q = g q) :
    readLevel root f p = readLevel root g p := by
  obtain ⟨schema, seen⟩ := p
  cases schema with
  | map es =>
    unfold readLevel
    dsimp only
    split
    · next r hr => exact referenceLevel_congr hr h
    · rfl
    · next hr =>
      split
      · rfl
      · next hm => exact plainLevel_congr fun v hv => h _ _ (.inside ⟨hr, hm⟩ hv)
      · next members _ hm =>
        refine congrArg (· >>= _) (Outcome.mapAll_congr fun m hmem => ?_)
        obtain ⟨hmem, hnull⟩ := List.mem_filter.1 hmem
        exact h _ _ (.member hr hm hmem (by simpa using hnull))
  | loop id v => exact h _ _ .loop
  | _ => rfl

theorem isPart_of_inside {v : Doc} (h : Inside es v) : Doc.IsPart v (.map es) := by
  cases h with
  | items _ _ hv => exact Doc.isPart_of_entry (Doc.field?_mem hv)
  | property _ _ hv hps hp =>
    exact .of_opened (hps ▸ Doc.isPart_of_entry hp) (Doc.field?_mem hv)

/-- A call that follows no reference is for a part of the schema. -/
theorem ReadCalls.isPart {p q : Doc × List String} (h : ReadCalls root p none q) :
    Doc.IsPart q.1 p.1 := by
  cases h with
  | member _ hms hm => exact Doc.isPart_of_elementsUnder hms hm
  | inside _ hv => exact isPart_of_inside hv
  | loop => exact Doc.isPart_loop _ _

theorem ReadCalls.nesting_lt {p q : Doc × List String} {visit : Option String}
    (h : ReadCalls root p visit q) : Doc.nesting root q < Doc.nesting root p := by
  cases h with
  | follow hr hs ht => exact Doc.nesting_lt_of_follow hr hs ht
  | member _ hms hm => exact Doc.nesting_lt_of_isPart (Doc.isPart_of_elementsUnder hms hm)
  | inside _ hv => exact Doc.nesting_lt_of_isPart (isPart_of_inside hv)
  | loop => exact Doc.nesting_lt_of_isPart (Doc.isPart_loop _ _)

/-- **Reading a schema** as a recursion. -/
def reading (root : Doc) : Recursion (Doc × List String) (Outcome Shape) where
  level := readLevel root
  Calls := ReadCalls root
  congr := readLevel_congr

theorem remembers_reading (root : Doc) : (reading root).Remembers Prod.snd := by
  intro p visit q h
  cases h with
  | follow hr hs ht ho henum hname => exact ⟨rfl, by simpa using hs⟩
  | _ => exact ⟨rfl, by simp⟩

/-- A number of levels that is enough for every schema of some depth. -/
def levels (root : Doc) (depth : Nat) : Nat :=
  depth + (root.refs.length + 1) * (root.depth + 1) + 1

theorem levels_mono {d d' : Nat} (h : d ≤ d') : levels root d ≤ levels root d' :=
  Nat.add_le_add_right (Nat.add_le_add_right h _) _

theorem nesting_lt_levels (root schema : Doc) (seen : List String) :
    Doc.nesting root (schema, seen) < levels root schema.depth := by
  have hforeign : (if Doc.isForeign root schema then 1 else 0) ≤ 1 := by split <;> simp
  have hcount : (if Doc.isForeign root schema then 1 else 0) + Doc.unfollowed root seen ≤
      root.refs.length + 1 := by
    have := Doc.unfollowed_le root seen
    omega
  exact Nat.lt_succ_of_le (Nat.add_le_add_left (Nat.mul_le_mul_right _ hcount) _)

/-- Enough levels are the reading. -/
theorem reading_iterate {schema : Doc} {n : Nat} (hn : levels root schema.depth ≤ n)
    (seen : List String) (rest : Doc × List String → Outcome Shape) :
    (reading root).level^[n] rest (schema, seen) = shapeFrom root schema seen :=
  (reading root).iterate_eq (f := fun p => shapeFrom root p.1 p.2) (s := (schema, seen))
    (fun p => shapeFrom_eq_readLevel root p.1 p.2) (fun _ _ _ h => ReadCalls.nesting_lt h)
    ((nesting_lt_levels root schema seen).trans_le hn) rest

end Schema

end ApiSnippets
