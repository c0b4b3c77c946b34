import ApiSnippets.Proofs.Schema.Flaws
/-!
# What the building of an index fails with

A document without paths, of another version, or with a reference that leads
nowhere is refused with a fault of the index. Much else that can be wrong in a
document is not looked for, and the building stops there with a defect:
components that are null, a field of parameters that is no list, a response
code that is a number. `Index.Flawed` is the list of these flaws, part by part
of a document, and it is complete: the building of an index succeeds only on a
document without any of them, and stops with a defect only on one that has one.
-/

namespace ApiSnippets

open Outcome

namespace Index

open Schema (Fields)

variable {doc : Doc}

/-! ## Bodies -/

/-- The schema of a media type is flawed. -/
def MediaFlaw (doc : Doc) (fields : Fields) : Prop :=
  ∃ s, Doc.field? "schema" fields = some s ∧ Schema.Flawed doc [] s

/-- Whether the search for a JSON media type ends at an entry: at a mapping
under a name that speaks of JSON, and at a name that is no text. -/
def endsSearch (e : Scalar × Doc) : Bool :=
  match e.1 with
  | .text media => Text.contains "json" media && e.2.isMap
  | _ => true

/-- What is wrong with the entry at which the search ends. -/
def SearchFlaw (doc : Doc) : Option (Scalar × Doc) → Prop
  | none => False
  | some (.text _, v) => ∃ fields, v.opened = .map fields ∧ MediaFlaw doc fields
  | some _ => True

/-- Whether a content has a binary media type. -/
def hasBinary (content : Fields) : Bool :=
  content.any fun e =>
    match e.1 with
    | .text media => isBinaryMedia media
    | _ => false

/-- What is wrong with the media types of a body: the first of them that ends
the search has a name that is no text or a flawed schema; or nothing ends the
search, none is binary, and the schema of the first is flawed. -/
def ContentFlaw (doc : Doc) (content : Fields) : Prop :=
  SearchFlaw doc (content.find? endsSearch) ∨
    content.find? endsSearch = none ∧ hasBinary content = false ∧
      ∃ e fields, content.head? = some e ∧ e.2.opened = .map fields ∧ MediaFlaw doc fields

/-- What is wrong with a field of media types. -/
def ContentFieldFlaw (doc v : Doc) : Prop :=
  v.isMap = false ∧ v.isTruthy = true ∨ ∃ content, v.opened = .map content ∧ ContentFlaw doc content

/-- What is wrong with a request body: the references that lead to it, or its
content. -/
def BodyFlaw (doc body : Doc) : Prop :=
  Pointer.Broken doc Pointer.chainLimit body ∨
    ∃ w v, Pointer.deref doc Pointer.chainLimit body = .ok w ∧ w.get? "content" = some v ∧
      ContentFieldFlaw doc v

theorem mediaShape_stopsAt (doc : Doc) (fields : Fields) :
    (mediaShape doc fields).StopsAt (MediaFlaw doc fields) := by
  unfold mediaShape MediaFlaw
  split
  · next s h => exact (Schema.shapeOf_stopsAt doc s).congr (by simp [h])
  · next h => exact .ok _ (by simp [h])

/-- The search looks at nothing behind the entry at which it ends. -/
theorem jsonShape?_eq (doc : Doc) (content : Fields) :
    jsonShape? doc content = match content.find? endsSearch with
      | none => .ok none
      | some (.text _, v) =>
        match v.opened with
        | .map fields => (mediaShape doc fields).map some
        | _ => .ok none
      | some _ => .error (.defect .type) := by
  induction content with
  | nil => rfl
  | cons e content ih =>
    obtain ⟨k, v⟩ := e
    cases k with
    | text media =>
      by_cases hends : endsSearch (.text media, v) = true
      · obtain ⟨hjson, hmap⟩ := Bool.and_eq_true_iff.1 hends
        obtain ⟨fields, hv⟩ := Doc.isMap_iff.1 hmap
        have hv : v.opened = .map fields := hv
        simp [jsonShape?, List.find?_cons_of_pos hends, hv, hjson]
      · have hgoes : jsonShape? doc ((.text media, v) :: content) = jsonShape? doc content := by
          rw [jsonShape?]
          split
          · next fields hv => simp_all [endsSearch, Doc.isMap]
          · rfl
        rw [hgoes, List.find?_cons_of_neg hends, ih]
    | _ => rfl

theorem contentShape_stopsAt (doc : Doc) (content : Fields) :
    (contentShape doc content).StopsAt (ContentFlaw doc content) := by
  unfold contentShape ContentFlaw
  rw [jsonShape?_eq]
  cases hfind : content.find? endsSearch with
  | none =>
    have hnone : ¬ SearchFlaw doc none := id
    show (if hasBinary content then _ else _ : Outcome (Option Shape)).StopsAt _
    split
    · next hbinary => exact .ok _ (by simp [hnone, hbinary])
    · next hbinary =>
      cases content with
      -- the first entry decides where none is for JSON
      | nil => exact .ok _ (by simp [hnone])
      | cons e content =>
        rw [List.head?_cons, Option.map_some, Option.map_some]
        split
        · next fields hv =>
          obtain hv : e.2.opened = .map fields := Option.some.inj hv
          refine (mediaShape_stopsAt doc fields).map.congr ?_
          simp [hnone, hbinary, hv]
        · next hv => exact .ok _ (by simp_all)
  | some e =>
    obtain ⟨k, v⟩ := e
    cases k with
    | text media =>
      have hends : endsSearch (.text media, v) = true := List.find?_some hfind
      obtain ⟨fields, hv⟩ := Doc.isMap_iff.1 (Bool.and_eq_true_iff.1 hends).2
      have hv : v.opened = .map fields := hv
      have hmedia := mediaShape_stopsAt doc fields
      refine StopsAt.congr (p := MediaFlaw doc fields) ?_ (by simp [SearchFlaw, hv])
      simp only [hv]
      cases hm : mediaShape doc fields with
      | error e => exact hmedia.error hm id
      | ok s => exact .ok _ fun hflaw => hmedia.ne_ok hflaw s hm
    | _ => exact .defect _ (.inl trivial)

theorem contentField_stopsAt (doc v : Doc) :
    (contentField doc v).StopsAt (ContentFieldFlaw doc v) := by
  unfold contentField ContentFieldFlaw
  split
  · next content hv =>
    refine (contentShape_stopsAt doc content).congr ?_
    simp [Doc.isMap, hv]
  · next hv =>
    have hnone : ¬ ∃ content, v.opened = .map content ∧ ContentFlaw doc content := by
      rintro ⟨content, hc, -⟩
      exact hv content hc
    split
    · next htruthy => exact .defect _ (.inl ⟨Doc.isMap_eq_false hv, htruthy⟩)
    · next hfalsy => exact .ok _ (by simp [hnone, hfalsy])

theorem requestShape_stopsAt (doc : Doc) (body : Option Doc) :
    (requestShape doc body).StopsAt (BodyFlaw doc (body.getD .null)) := by
  unfold requestShape
  refine (Pointer.deref_stopsAt doc _ (body.getD .null)).bind fun w hw => ?_
  have hiff : (∃ u v, Pointer.deref doc Pointer.chainLimit (body.getD .null) = .ok u ∧
      u.get? "content" = some v ∧ ContentFieldFlaw doc v) ↔
      ∃ v, w.get? "content" = some v ∧ ContentFieldFlaw doc v := by
    simp [hw]
  refine StopsAt.congr ?_ hiff.symm
  split
  · next fields hfields =>
    have hget : w.get? "content" = Doc.field? "content" fields := by simp [Doc.get?, hfields]
    split
    · next v hv => exact (contentField_stopsAt doc v).congr (by simp [hget, hv])
    · next hv => exact .ok _ (by simp [hget, hv])
  · next hmap =>
    have hget : w.get? "content" = none := by
      unfold Doc.get?
      split
      · next es he => exact (hmap es he).elim
      · rfl
    exact .ok _ (by simp [hget])

/-! ## Responses -/

/-- What is wrong with a response whose content decides: the references that
lead to it, or the content. -/
def ResponseFlaw (doc response : Doc) : Prop :=
  Pointer.Broken doc Pointer.chainLimit response ∨
    ∃ w v, Pointer.deref doc Pointer.chainLimit response = .ok w ∧ w.get? "content" = some v ∧
      v.isTruthy = true ∧ ContentFieldFlaw doc v

/-- A response without content, which is passed over. -/
def Empty (doc response : Doc) : Prop :=
  ∀ w v, Pointer.deref doc Pointer.chainLimit response = .ok w → w.get? "content" = some v →
    v.isTruthy = false

/-- The response under a code. -/
def responseAt (responses : Fields) (code : String) : Doc :=
  (Doc.field? code responses).getD .null

/-- What is wrong with responses, in the order of their codes: the first
successful one with content is flawed, or a reference to one before it. -/
inductive CodesFlaw (doc : Doc) (responses : Fields) : List String → Prop
  | here {code : String} {codes : List String} (hcode : Text.hasStart "2" code = true)
      (h : ResponseFlaw doc (responseAt responses code)) : CodesFlaw doc responses (code :: codes)
  | unsuccessful {code : String} {codes : List String} (hcode : Text.hasStart "2" code = false)
      (h : CodesFlaw doc responses codes) : CodesFlaw doc responses (code :: codes)
  | empty {code : String} {codes : List String} (hempty : Empty doc (responseAt responses code))
      (h : CodesFlaw doc responses codes) : CodesFlaw doc responses (code :: codes)

/-- What is wrong with the responses of an operation: a code that is no text,
or a response. Of codes without responses each has to be a text, and none may
be a success. -/
inductive ResponsesFlaw (doc v : Doc) : Prop
  | code {es : Fields} {e : Scalar × Doc} (hes : v.opened = .map es) (he : e ∈ es)
      (h : ∀ s, e.1 ≠ .text s)
  | response {es : Fields} {codes : List String} (hes : v.opened = .map es)
      (hcodes : sortedCodes (es.map fun e => .scalar e.1) = .ok codes) (h : CodesFlaw doc es codes)
  | bare (hmap : v.isMap = false) (htruthy : v.isTruthy = true)
      (h : ∀ codes, v.elements = .ok codes →
        ∃ code ∈ codes, ∀ s, code = .text s → Text.hasStart "2" s = true)

theorem codeText?_eq (code : Doc) : codeText? code = code.text? := by
  rcases code with s | _ | _ | _ | _ | _ | _
  · cases s <;> rfl
  all_goals rfl

theorem mapM_codeText?_eq_none_iff {codes : List Doc} :
    codes.mapM codeText? = none ↔ ∃ code ∈ codes, code.text? = none := by
  induction codes with
  | nil => simp
  | cons code codes ih =>
    rw [List.mapM_cons, codeText?_eq]
    cases hcode : code.text? with
    | none => simp [hcode]
    | some s => cases hcodes : codes.mapM codeText? <;> simp_all

theorem eq_map_of_mapM_codeText? {codes : List Doc} {names : List String}
    (h : codes.mapM codeText? = some names) : codes = names.map Doc.text := by
  induction codes generalizing names with
  | nil => simp_all
  | cons code codes ih =>
    rw [List.mapM_cons] at h
    obtain ⟨s, hs, h⟩ := Option.bind_eq_some_iff.1 h
    obtain ⟨rest, hrest, h⟩ := Option.bind_eq_some_iff.1 h
    obtain rfl := Option.some.inj h
    obtain rfl : code = .text s := by
      unfold codeText? at hs
      split at hs
      · rw [Option.some.inj hs]
      · cases hs
    rw [ih hrest, List.map_cons]

/-- Sorting keeps the codes. -/
theorem mem_of_sortedCodes {codes : List Doc} {names : List String}
    (h : sortedCodes codes = .ok names) (code : Doc) :
    code ∈ codes ↔ ∃ name ∈ names, code = .text name := by
  unfold sortedCodes at h
  split at h
  · next found hfound =>
    obtain rfl := Except.ok.inj h
    rw [eq_map_of_mapM_codeText? hfound]
    simp [eq_comm]
  · split at h <;> cases h

theorem any_success_iff {codes : List Doc} {names : List String}
    (h : sortedCodes codes = .ok names) : names.any (Text.hasStart "2") = true ↔
      ∃ code ∈ codes, ∀ s, code = .text s → Text.hasStart "2" s = true := by
  rw [List.any_eq_true]
  constructor
  · rintro ⟨name, hname, hstart⟩
    refine ⟨.text name, (mem_of_sortedCodes h _).2 ⟨name, hname, rfl⟩, ?_⟩
    rintro s hs
    cases hs
    exact hstart
  · rintro ⟨code, hcode, hstart⟩
    obtain ⟨name, hname, rfl⟩ := (mem_of_sortedCodes h code).1 hcode
    exact ⟨name, hname, hstart name rfl⟩

theorem codeDefect_stopsAt {α : Type} {p : Prop} (code : Option Doc) (h : p) :
    StopsAt (α := α) (.error ((code.map codeDefect).getD (.defect .part))) p := by
  cases code with
  | none => exact .defect _ h
  | some code =>
    show StopsAt (.error (codeDefect code)) p
    unfold codeDefect
    split
    · exact .defect _ h
    · exact .defect _ h

theorem sortedCodes_stopsAt (codes : List Doc) :
    (sortedCodes codes).StopsAt (∃ code ∈ codes, code.text? = none) := by
  unfold sortedCodes
  split
  · next names hnames =>
    refine .ok _ ?_
    rw [← mapM_codeText?_eq_none_iff, hnames]
    simp
  · next hnone =>
    have hflaw := mapM_codeText?_eq_none_iff.1 hnone
    split
    · exact codeDefect_stopsAt codes.head? hflaw
    · exact .defect _ hflaw

variable {responses : Fields} {code : String} {codes : List String}

theorem codesFlaw_of_unsuccessful (hcode : Text.hasStart "2" code = false) :
    CodesFlaw doc responses (code :: codes) ↔ CodesFlaw doc responses codes := by
  constructor
  · intro h
    cases h with
    | here hcode' => simp [hcode] at hcode'
    | unsuccessful _ h => exact h
    | empty _ h => exact h
  · exact .unsuccessful hcode

theorem codesFlaw_of_empty (hempty : Empty doc (responseAt responses code))
    (hbroken : ¬ Pointer.Broken doc Pointer.chainLimit (responseAt responses code)) :
    CodesFlaw doc responses (code :: codes) ↔ CodesFlaw doc responses codes := by
  constructor
  · intro h
    cases h with
    | here _ h =>
      rcases h with h | ⟨w, v, hw, hv, htruthy, -⟩
      · exact absurd h hbroken
      · simp [hempty w v hw hv] at htruthy
    | unsuccessful _ h => exact h
    | empty _ h => exact h
  · exact .empty hempty

/-- A response with content decides. -/
theorem codesFlaw_of_content {w v : Doc} (hcode : Text.hasStart "2" code = true)
    (hw : Pointer.deref doc Pointer.chainLimit (responseAt responses code) = .ok w)
    (hv : w.get? "content" = some v) (htruthy : v.isTruthy = true) :
    CodesFlaw doc responses (code :: codes) ↔
      Pointer.Broken doc Pointer.chainLimit (responseAt responses code) ∨
        ContentFieldFlaw doc v := by
  have hfull : ¬ Empty doc (responseAt responses code) := by
    intro h
    simp [h w v hw hv] at htruthy
  constructor
  · intro h
    cases h with
    | here _ h =>
      refine h.imp_right ?_
      rintro ⟨w', v', hw', hv', -, h⟩
      simp_all
    | unsuccessful hcode' => simp [hcode] at hcode'
    | empty h => exact absurd h hfull
  · rintro (h | h)
    · exact .here hcode (.inl h)
    · exact .here hcode (.inr ⟨w, v, hw, hv, htruthy, h⟩)

theorem firstResponse_stopsAt (doc : Doc) (responses : Fields) (codes : List String) :
    (firstResponse doc responses codes).StopsAt (CodesFlaw doc responses codes) := by
  induction codes with
  | nil =>
    refine .ok _ ?_
    rintro ⟨⟩
  | cons code codes ih =>
    rw [firstResponse]
    split
    · next hcode =>
      -- only a success with content decides, behind all other codes the next ones do
      have hderef := Pointer.deref_stopsAt doc Pointer.chainLimit (responseAt responses code)
      refine hderef.andThen (fun h => .here hcode (.inl h)) fun w hw => ?_
      have hbroken : ¬ Pointer.Broken doc Pointer.chainLimit (responseAt responses code) :=
        fun h => hderef.ne_ok h w hw
      split
      · next v hv =>
        split
        · next htruthy =>
          refine (contentField_stopsAt doc v).congr ?_
          simp [codesFlaw_of_content hcode hw hv htruthy, hbroken]
        · next hfalsy =>
          have hempty : Empty doc (responseAt responses code) := by
            intro w' v' hw' hv'
            simp_all
          exact ih.congr (codesFlaw_of_empty hempty hbroken).symm
      · next hv =>
        have hempty : Empty doc (responseAt responses code) := by
          intro w' v' hw' hv'
          simp_all
        exact ih.congr (codesFlaw_of_empty hempty hbroken).symm
    · next hcode => exact ih.congr (codesFlaw_of_unsuccessful (by simpa using hcode)).symm

theorem responsesFlaw_of_map {v : Doc} (hes : v.opened = .map responses) :
    ResponsesFlaw doc v ↔ (∃ code ∈ responses.map fun e => Doc.scalar e.1, code.text? = none) ∨
      ∃ codes, sortedCodes (responses.map fun e => .scalar e.1) = .ok codes ∧
        CodesFlaw doc responses codes := by
  have htext : ∀ s : Scalar, (Doc.scalar s).text? = none ↔ ∀ t, s ≠ .text t := by
    intro s
    cases s <;> simp [Doc.text?]
  have hmap : v.isMap = true := by simp [Doc.isMap, hes]
  constructor
  · intro h
    cases h with
    | @code es e hes' he h =>
      obtain rfl : responses = es := by simpa [hes] using hes'
      exact .inl ⟨_, List.mem_map_of_mem he, (htext e.1).2 h⟩
    | @response es codes hes' hcodes h =>
      obtain rfl : responses = es := by simpa [hes] using hes'
      exact .inr ⟨codes, hcodes, h⟩
    | bare hmap' => simp [hmap] at hmap'
  · rintro (⟨code, hcode, h⟩ | ⟨codes, hcodes, h⟩)
    · obtain ⟨e, he, rfl⟩ := List.mem_map.1 hcode
      exact .code hes he ((htext e.1).1 h)
    · exact .response hes hcodes h

theorem responsesFlaw_of_not_map {v : Doc} (hmap : v.isMap = false) :
    ResponsesFlaw doc v ↔ v.isTruthy = true ∧ ∀ codes, v.elements = .ok codes →
      ∃ code ∈ codes, ∀ s, code = .text s → Text.hasStart "2" s = true := by
  have hnone : ∀ es, v.opened ≠ .map es := by
    intro es hes
    simp [Doc.isMap, hes] at hmap
  constructor
  · intro h
    cases h with
    | code hes => exact (hnone _ hes).elim
    | response hes => exact (hnone _ hes).elim
    | bare _ htruthy h => exact ⟨htruthy, h⟩
  · rintro ⟨htruthy, h⟩
    exact .bare hmap htruthy h

theorem responseShape_stopsAt (doc : Doc) (responses : Option Doc) :
    (responseShape doc responses).StopsAt (∃ v, responses = some v ∧ ResponsesFlaw doc v) := by
  cases responses with
  | none => exact .ok _ (by simp)
  | some v =>
    refine StopsAt.congr (p := ResponsesFlaw doc v) ?_ (by simp)
    unfold responseShape
    dsimp only
    split
    · next es hes =>
      refine ((sortedCodes_stopsAt _).bind fun codes hcodes => ?_).congr
        (responsesFlaw_of_map hes).symm
      exact (firstResponse_stopsAt doc es codes).congr (by simp [hcodes])
    · next hmap =>
      have hiff : ResponsesFlaw doc v ↔ _ := responsesFlaw_of_not_map (Doc.isMap_eq_false hmap)
      split
      · next htruthy =>
        refine StopsAt.congr ?_ hiff.symm
        -- what is not a mapping is looked through for codes, and then for one of a success
        refine v.elements_stopsAt.andThen (fun h => ⟨htruthy, fun codes hcodes => ?_⟩)
          fun codes hcodes => ?_
        · exact (v.elements_stopsAt.ne_ok h codes hcodes).elim
        refine (sortedCodes_stopsAt codes).andThen ?_ fun names hnames => ?_
        · rintro ⟨code, hcode, htext⟩
          refine ⟨htruthy, fun codes' hcodes' => ⟨code, ?_, ?_⟩⟩
          · simp_all
          · rintro s rfl
            simp [Doc.text?] at htext
        have hflaw : (v.isTruthy = true ∧ ∀ codes, v.elements = .ok codes →
            ∃ code ∈ codes, ∀ s, code = .text s → Text.hasStart "2" s = true) ↔
            names.any (Text.hasStart "2") = true := by
          simp [htruthy, hcodes, any_success_iff hnames]
        refine StopsAt.congr ?_ hflaw.symm
        split
        · next h => exact .defect _ h
        · next h => exact .ok _ h
      · next hfalsy => exact .ok _ (by simp [hiff, hfalsy])

/-! ## Parameters -/

/-- Where a parameter says that it stands, none when no parameter can stand
there. -/
def locationOf? (fields : Fields) : Option ParameterLocation :=
  match Doc.field? "in" fields with
  | none => some ParameterLocation.query
  | some v => v.text?.bind ParameterLocation.ofName?

/-- What is wrong with a parameter: the references that lead to it, its schema,
or a name that is no text. -/
def ParameterFlaw (doc raw : Doc) : Prop :=
  Pointer.Broken doc Pointer.chainLimit raw ∨
    ∃ w name, Pointer.deref doc Pointer.chainLimit raw = .ok w ∧ w.get? "name" = some name ∧
      ∃ fields, w.opened = .map fields ∧ (locationOf? fields).isSome = true ∧
        (MediaFlaw doc fields ∨ ∀ s, name = .scalar s → s.recordText? = none)

/-- A value is among the parameters of a path item or an operation. -/
def DeclaresParameter (fields : Fields) (raw : Doc) : Prop :=
  ∃ v raws, Doc.field? "parameters" fields = some v ∧ v.elements = .ok raws ∧ raw ∈ raws

theorem recordScalar_stopsAt (v : Doc) :
    (recordScalar v).StopsAt (∀ s, v = .scalar s → s.recordText? = none) := by
  unfold recordScalar
  split
  · split
    · next name h => exact .ok _ (by simp [h])
    · next h => exact .defect _ (by simp [h])
  · next h => exact .defect _ fun s hs => (h s hs).elim

theorem recordText_stopsAt (v : Doc) :
    (recordText v).StopsAt (∀ s, v = .scalar s → s.recordText? = none) :=
  (recordScalar_stopsAt v).map

theorem parameterOf_stopsAt (doc raw : Doc) :
    (parameterOf doc raw).StopsAt (ParameterFlaw doc raw) := by
  unfold parameterOf
  have hderef := Pointer.deref_stopsAt doc Pointer.chainLimit raw
  refine hderef.andThen .inl fun w hw => ?_
  have hbroken : ¬ Pointer.Broken doc Pointer.chainLimit raw := fun h => hderef.ne_ok h w hw
  split
  · next fields hfields =>
    have hget : w.get? "name" = Doc.field? "name" fields := by simp [Doc.get?, hfields]
    split
    · next hname => exact .ok _ (by simp [ParameterFlaw, hbroken, hw, hget, hname])
    · next name hname =>
      have hiff : ParameterFlaw doc raw ↔ (locationOf? fields).isSome = true ∧
          (MediaFlaw doc fields ∨ ∀ s, name = .scalar s → s.recordText? = none) := by
        simp [ParameterFlaw, hbroken, hw, hget, hname, hfields]
      -- behind every place for a parameter stand the same steps
      have hrest (declared : Shape → Scalar × String → Option (Scalar × Parameter)) :
          (mediaShape doc fields >>= fun shape =>
            recordScalar name >>= fun read => .ok (declared shape read)).StopsAt
          (MediaFlaw doc fields ∨ ∀ s, name = .scalar s → s.recordText? = none) :=
        (mediaShape_stopsAt doc fields).bind fun _ _ => (recordScalar_stopsAt name).bind_ok _
      refine StopsAt.congr ?_ hiff.symm
      cases hin : Doc.field? "in" fields with
      | none => exact (hrest _).congr (by simp [locationOf?, hin])
      | some v =>
        dsimp only
        split
        · next hloc => exact .ok _ (by simp [locationOf?, hin, hloc])
        · next location hloc => exact (hrest _).congr (by simp [locationOf?, hin, hloc])
  · next hmap =>
    refine .ok _ ?_
    rintro (h | ⟨w', name, hw', -, fields, hfields, -⟩)
    · exact hbroken h
    · obtain rfl : w = w' := by simpa [hw] using hw'
      exact hmap fields hfields

theorem mergeParameters_stopsAt (doc : Doc)
    (acc : Entries (Scalar × ParameterLocation) Parameter) (raws : List Doc) :
    (mergeParameters doc acc raws).StopsAt (∃ raw ∈ raws, ParameterFlaw doc raw) := by
  induction raws generalizing acc with
  | nil => exact .ok _ (by simp)
  | cons raw raws ih =>
    rw [mergeParameters]
    have hrest : (∃ p ∈ raw :: raws, ParameterFlaw doc p) ↔
        ParameterFlaw doc raw ∨ ∃ p ∈ raws, ParameterFlaw doc p := by simp
    refine ((parameterOf_stopsAt doc raw).bind fun p _ => ?_).congr hrest.symm
    cases p with
    | none => exact ih acc
    | some p =>
      obtain ⟨key, p⟩ := p
      exact ih _

theorem listField_stopsAt (name : String) (fields : Fields) :
    (listField name fields).StopsAt (Doc.Unlisted name fields) := by
  unfold listField
  split
  · next v h => exact v.elements_stopsAt.congr (Doc.unlisted_iff h).symm
  · next h => exact .ok _ (Doc.not_unlisted h)

/-- The parameters that are listed are those declared. -/
theorem mem_listField {fields : Fields} {raws : List Doc}
    (h : listField "parameters" fields = .ok raws) (raw : Doc) :
    raw ∈ raws ↔ DeclaresParameter fields raw := by
  unfold listField at h
  unfold DeclaresParameter
  split at h
  · next v hv => simp [hv, h]
  · next hv =>
    obtain rfl := Except.ok.inj h
    simp [hv]

/-! ## Operations -/

/-- What is wrong with the identifier of an operation: it is no text. -/
def IdFlaw (fields : Fields) : Prop :=
  ∃ v, Doc.field? "operationId" fields = some v ∧ v ≠ .null ∧
    ∀ s, v = .scalar s → s.recordText? = none

/-- What is wrong with an operation of a path item. -/
inductive OperationFlaw (doc : Doc) (item fields : Fields) : Prop
  | unlisted (h : Doc.Unlisted "parameters" item ∨ Doc.Unlisted "parameters" fields)
  | parameter {raw : Doc} (hraw : DeclaresParameter item raw ∨ DeclaresParameter fields raw)
      (h : ParameterFlaw doc raw)
  | request (h : BodyFlaw doc ((Doc.field? "requestBody" fields).getD .null))
  | responses {v : Doc} (hv : Doc.field? "responses" fields = some v) (h : ResponsesFlaw doc v)
  | id (h : IdFlaw fields)

/-- What is wrong with the operations of a path item. -/
def ItemFlaw (doc : Doc) (item : Fields) : Prop :=
  ∃ name m v fields, (Scalar.text name, v) ∈ item ∧ Method.ofName? name = some m ∧
    v.opened = .map fields ∧ OperationFlaw doc item fields

/-- What is wrong with a template and its path item. -/
inductive TemplateFlaw (doc : Doc) (template : Scalar) (item : Doc) : Prop
  | chain (hmap : item.isMap = true) (h : Pointer.Broken doc Pointer.chainLimit item)
  | name (hmap : item.isMap = true) (htext : ∀ s, template ≠ .text s) (hne : template ≠ .octets [])
  | item {w : Doc} (hmap : item.isMap = true)
      (hw : Pointer.deref doc Pointer.chainLimit item = .ok w) (h : w.isMap = false)
  | operation {w : Doc} {fields : Fields} (hmap : item.isMap = true)
      (hw : Pointer.deref doc Pointer.chainLimit item = .ok w) (hfields : w.opened = .map fields)
      (h : ItemFlaw doc fields)

/-! ## The index -/

/-- What is wrong with the schemas of a document: a name that is no text. -/
def SchemasFlaw (schemas : Doc) : Prop :=
  (∃ es, schemas.opened = .map es ∧ ∃ e ∈ es, isSchemaName e.1 = false) ∨
    schemas.isMap = false ∧ schemas.isTruthy = true ∧ ∀ names, schemas.elements = .ok names →
      ∃ name ∈ names, isSchemaName (bareName name).1 = false

/-- What is wrong with the components of a document: they are no mapping, or
their schemas are flawed. -/
def ComponentsFlaw (doc : Doc) : Prop :=
  ∃ v, doc.get? "components" = some v ∧
    (v.isMap = false ∨ ∃ s, v.get? "schemas" = some s ∧ SchemasFlaw s)

/-- **What can be wrong with a document that is not looked for.** -/
inductive Flawed (doc : Doc) : Prop
  | components (h : ComponentsFlaw doc)
  | template {paths : Doc} {es : Fields} {e : Scalar × Doc} (hpaths : doc.get? "paths" = some paths)
      (hes : paths.opened = .map es) (he : e ∈ es) (h : TemplateFlaw doc e.1 e.2)

theorem operationId_stopsAt (fields : Fields) :
    (operationId fields).StopsAt (IdFlaw fields) := by
  unfold operationId IdFlaw
  split
  · next h => exact .ok _ (by simp [h])
  · next h => exact .ok _ (by simp [h])
  · next v hnull h =>
    have hnull : v ≠ .null := hnull
    exact (recordText_stopsAt v).map.congr (by simp [h, hnull])

theorem operationFlaw_iff {item fields : Fields} :
    OperationFlaw doc item fields ↔
      Doc.Unlisted "parameters" item ∨ Doc.Unlisted "parameters" fields ∨
        (∃ raw, (DeclaresParameter item raw ∨ DeclaresParameter fields raw) ∧
          ParameterFlaw doc raw) ∨
          BodyFlaw doc ((Doc.field? "requestBody" fields).getD .null) ∨
            (∃ v, Doc.field? "responses" fields = some v ∧ ResponsesFlaw doc v) ∨
              IdFlaw fields := by
  constructor
  · intro h
    cases h <;> grind
  · rintro (h | h | ⟨raw, hraw, h⟩ | h | ⟨v, hv, h⟩ | h)
    · exact .unlisted (.inl h)
    · exact .unlisted (.inr h)
    · exact .parameter hraw h
    · exact .request h
    · exact .responses hv h
    · exact .id h

theorem operationOf_stopsAt (doc : Doc) (segment : String) (m : Method) (item fields : Fields) :
    (operationOf doc segment m item fields).StopsAt (OperationFlaw doc item fields) := by
  refine StopsAt.congr ?_ operationFlaw_iff.symm
  refine (listField_stopsAt _ item).bind fun shared hshared => ?_
  refine (listField_stopsAt _ fields).bind fun own hown => ?_
  have hraws : (∃ raw ∈ shared ++ own, ParameterFlaw doc raw) ↔
      ∃ raw, (DeclaresParameter item raw ∨ DeclaresParameter fields raw) ∧
        ParameterFlaw doc raw := by
    simp only [List.mem_append, mem_listField hshared, mem_listField hown]
  refine ((mergeParameters_stopsAt doc [] _).congr hraws).bind fun parameters _ => ?_
  refine (requestShape_stopsAt doc _).bind fun request _ => ?_
  refine (responseShape_stopsAt doc _).bind fun response _ => ?_
  exact (operationId_stopsAt fields).bind_ok _

/-- The operations of a path item, of which only the mappings under the name
of a method are read. -/
theorem operationsOf_stopsAt (doc : Doc) (segment : String) (item rest : Fields) :
    (operationsOf doc segment item rest).StopsAt (∃ name m v fields, (Scalar.text name, v) ∈ rest ∧
      Method.ofName? name = some m ∧ v.opened = .map fields ∧ OperationFlaw doc item fields) := by
  induction rest with
  | nil => exact .ok _ (by simp)
  | cons e rest ih =>
    obtain ⟨k, v⟩ := e
    cases k with
    | text name =>
      rw [operationsOf]
      split
      · next m fields hm hv =>
        refine ((operationOf_stopsAt doc segment m item fields).bind fun op _ =>
          ih.bind_ok _).congr ?_
        constructor
        · rintro (h | ⟨name', m', v', fields', hmem, h⟩)
          · exact ⟨name, m, v, fields, List.mem_cons_self, hm, hv, h⟩
          · exact ⟨name', m', v', fields', List.mem_cons_of_mem _ hmem, h⟩
        · rintro ⟨name', m', v', fields', hmem, hm', hv', h⟩
          rcases List.mem_cons.1 hmem with he | hmem
          · simp_all
          · exact .inr ⟨name', m', v', fields', hmem, hm', hv', h⟩
      · next hnone =>
        refine ih.congr ⟨?_, ?_⟩
        · rintro ⟨name', m', v', fields', hmem, h⟩
          exact ⟨name', m', v', fields', List.mem_cons_of_mem _ hmem, h⟩
        · rintro ⟨name', m', v', fields', hmem, hm', hv', h⟩
          rcases List.mem_cons.1 hmem with he | hmem
          · obtain ⟨hname, rfl⟩ := Prod.mk.inj he
            obtain rfl := Scalar.text.inj hname
            exact (hnone m' fields' hm' hv').elim
          · exact ⟨name', m', v', fields', hmem, hm', hv', h⟩
    | _ => exact ih.congr (by simp)

theorem templateSegments_stopsAt (template : Scalar) :
    (templateSegments template).StopsAt ((∀ s, template ≠ .text s) ∧ template ≠ .octets []) := by
  unfold templateSegments
  split
  · exact .ok _ (by simp)
  · exact .ok _ (by simp)
  · next htext hoctets => exact .defect _ ⟨htext, hoctets⟩

theorem addTemplate_stopsAt (doc : Doc) (tree : PathNode) (template : Scalar) (item : Doc) :
    (addTemplate doc tree template item).StopsAt (TemplateFlaw doc template item) := by
  unfold addTemplate
  split
  · next hmap =>
    have hderef := Pointer.deref_stopsAt doc Pointer.chainLimit item
    refine hderef.andThen (.chain hmap) fun w hw => ?_
    have hbroken : ¬ Pointer.Broken doc Pointer.chainLimit item := fun h => hderef.ne_ok h w hw
    have hname := templateSegments_stopsAt template
    refine hname.andThen (fun h => .name hmap h.1 h.2) fun segments hsegments => ?_
    have hnamed : ¬ ((∀ s, template ≠ .text s) ∧ template ≠ .octets []) := fun h =>
      hname.ne_ok h segments hsegments
    split
    · next fields hfields =>
      refine ((operationsOf_stopsAt doc _ fields fields).bind_ok _).congr ⟨?_, ?_⟩
      · exact .operation hmap hw hfields
      · intro h
        cases h with
        | chain _ h => exact (hbroken h).elim
        | name _ htext hne => exact (hnamed ⟨htext, hne⟩).elim
        | item _ hw' h =>
          obtain rfl := Except.ok.inj (hw.symm.trans hw')
          simp [Doc.isMap, hfields] at h
        | operation _ hw' hfields' h =>
          obtain rfl := Except.ok.inj (hw.symm.trans hw')
          obtain rfl := Doc.map.inj (hfields.symm.trans hfields')
          exact h
    · next h => exact .defect _ (.item hmap hw (Doc.isMap_eq_false h))
  · next hmap =>
    refine .ok _ ?_
    intro h
    cases h <;> contradiction

theorem addTemplates_stopsAt (doc : Doc) (tree : PathNode) (paths : Fields) :
    (addTemplates doc tree paths).StopsAt (∃ e ∈ paths, TemplateFlaw doc e.1 e.2) := by
  induction paths generalizing tree with
  | nil => exact .ok _ (by simp)
  | cons e paths ih =>
    rw [addTemplates]
    refine ((addTemplate_stopsAt doc tree e.1 e.2).bind fun tree _ => ih tree).congr ?_
    simp

theorem catalogOf_stopsAt (doc : Doc) (standIn : Option Doc) (schemas : Fields) :
    (catalogOf doc standIn schemas).StopsAt (∃ e ∈ schemas, isSchemaName e.1 = false) := by
  unfold catalogOf
  split
  · next h => exact .ok _ (by simpa using h)
  · next h => exact .defect _ (by simpa using h)

theorem schemasField_stopsAt (doc schemas : Doc) :
    (schemasField doc schemas).StopsAt (SchemasFlaw schemas) := by
  unfold schemasField SchemasFlaw
  split
  · next es hes => exact (catalogOf_stopsAt doc none es).congr (by simp [hes, Doc.isMap])
  · next hmap =>
    have hnone : ¬ ∃ es, schemas.opened = .map es ∧ ∃ e ∈ es, isSchemaName e.1 = false := by
      rintro ⟨es, hes, -⟩
      exact hmap es hes
    have hmap := Doc.isMap_eq_false hmap
    split
    · next htruthy =>
      refine schemas.elements_stopsAt.andThen (fun h => .inr ⟨hmap, htruthy, ?_⟩)
        fun names hnames => ?_
      · intro names hnames
        exact (schemas.elements_stopsAt.ne_ok h names hnames).elim
      · refine (catalogOf_stopsAt doc _ _).congr ?_
        rw [or_iff_right hnone]
        simp [hmap, htruthy, hnames]
    · next hfalsy =>
      refine .ok _ ?_
      rw [or_iff_right hnone]
      simp [hfalsy]

theorem catalogIn_stopsAt (doc : Doc) : (catalogIn doc).StopsAt (ComponentsFlaw doc) := by
  unfold catalogIn ComponentsFlaw
  cases hv : doc.get? "components" with
  | none => exact .ok _ (by simp)
  | some v =>
    cases hmap : v.isMap with
    | false =>
      simp only [Option.map_some]
      split
      · contradiction
      · next hopen => simp_all [Doc.isMap]
      · exact .defect _ ⟨v, rfl, .inl hmap⟩
    | true =>
      obtain ⟨components, hopen⟩ := Doc.isMap_iff.1 hmap
      have hget : v.get? "schemas" = Doc.field? "schemas" components := by simp [Doc.get?, hopen]
      simp only [Option.map_some, hopen]
      split
      · next hs => exact .ok _ (by simp [hmap, hget, hs])
      · next s hs => exact (schemasField_stopsAt doc s).congr (by simp [hmap, hget, hs])

theorem versionOf_stopsAt (doc : Doc) : (versionOf doc).StopsAt False := by
  unfold versionOf
  split
  · exact .index _
  · split
    · exact .index _
    · exact .index _
    · dsimp only
      split
      · exact .ok _ id
      · exact .index _

theorem ofDoc_stopsAt (doc : Doc) (validate : Bool) :
    (ofDoc doc validate).StopsAt (Flawed doc) := by
  have hbuild : (ofDoc doc false).StopsAt (Flawed doc) := by
    simp only [ofDoc, Bool.false_eq_true, if_false]
    split
    · next es hes =>
      obtain ⟨paths, hpaths, hes⟩ := Option.map_eq_some_iff.1 hes
      refine ((catalogIn_stopsAt doc).bind fun catalog _ =>
        (addTemplates_stopsAt doc .root es).bind_ok _).congr ⟨?_, ?_⟩
      · rintro (h | ⟨e, he, h⟩)
        · exact .components h
        · exact .template hpaths hes he h
      · intro h
        cases h with
        | components h => exact .inl h
        | @template paths' es' e hpaths' hes' he h =>
          obtain rfl := Option.some.inj (hpaths.symm.trans hpaths')
          obtain rfl := Doc.map.inj (hes.symm.trans hes')
          exact .inr ⟨e, he, h⟩
    · exact .index _
  cases validate with
  | false => exact hbuild
  | true => exact (versionOf_stopsAt doc).andThen False.elim fun _ _ => hbuild

/-- **What the building of an index comes to.** There is an index, and then no
part of the document is flawed; or a fault of the index says why there is
none; or the document is flawed, and the building stops with a defect. -/
theorem ofDoc_outcome (doc : Doc) (validate : Bool) :
    (∃ ix, ofDoc doc validate = .ok ix ∧ ¬ Flawed doc) ∨
      (∃ cause, ofDoc doc validate = .error (.index cause)) ∨
        (Flawed doc ∧ ∃ kind, ofDoc doc validate = .error (.defect kind)) := by
  have hstops := ofDoc_stopsAt doc validate
  cases h : ofDoc doc validate with
  | ok ix => exact .inl ⟨ix, rfl, fun hflaw => hstops.ne_ok hflaw ix h⟩
  | error e =>
    rcases hstops.fault e h with ⟨cause, rfl⟩ | ⟨hflaw, kind, rfl⟩
    · exact .inr (.inl ⟨cause, rfl⟩)
    · exact .inr (.inr ⟨hflaw, kind, rfl⟩)

example : ofDoc (.map [(.text "openapi", .text "3.0.0"), (.text "paths", .map []),
    (.text "components", .null)]) true = .error (.defect .part) := by
  rfl

end Index

end ApiSnippets
