import ApiSnippets.Code.Language
import ApiSnippets.Proofs.Text.Brackets
/-!
# The layout of expressions

Lines are well laid out when their brackets are balanced and every line is
indented by the brackets that are open where it begins, not counting one that
it closes first (`WellLaidOut`). An expression is laid out so when its pieces
are in order (`WellFormed`): leaves and names are inline, a group is opened at
the end of the last of its opening lines, and the first character of its
closing line closes it.
-/

namespace ApiSnippets

namespace Layout

open Brackets

variable {S T U : List Char} {l : Line} {ls ms : List Line}

/-! ## Well laid out texts -/

/-- The brackets that are open where a line begins and that its first
character does not close. -/
def stillOpen (opened : List Char) : List Char → List Char
  | [] => opened
  | c :: _ => if signOf c = .closing then opened.tail else opened

/-- The tabs that a line begins with. -/
def leadingTabs (line : String) : List Char :=
  line.toList.takeWhile (· == '\t')

/-- A line without the tabs that it begins with. -/
def afterTabs (line : String) : List Char :=
  line.toList.dropWhile (· == '\t')

/-- **Lines that are well laid out**: their brackets are balanced, and every
line has one tab for each bracket that is open where it begins, not counting
one that its first character closes. -/
structure WellLaidOut (lines : List String) : Prop where
  unbroken : ∀ line ∈ lines, '\n' ∉ line.toList
  balanced : read? ⟨.code, []⟩ (Language.joined lines).toList = some ⟨.code, []⟩
  indented : ∀ above line below, lines = above ++ line :: below →
    ∃ opened, read? ⟨.code, []⟩ (Language.joined above).toList = some ⟨.code, opened⟩ ∧
      (leadingTabs line).length = (stillOpen opened (afterTabs line)).length

/-! ## Lines -/

/-- A line that is indented by the brackets that are open, and the brackets
that are open after it. -/
structure LaidLine (opened : List Char) (l : Line) (after : List Char) : Prop where
  piece : Piece opened l.text after
  indent : l.indent = (stillOpen opened l.text.toList).length

/-- Lines that are indented by the brackets that are open, and the brackets
that are open after them. -/
def Laid : List Char → List Line → List Char → Prop
  | S, [], T => S = T
  | S, l :: ls, T => ∃ U, LaidLine S l U ∧ Laid U ls T

theorem laid_append : Laid S (ls ++ ms) T ↔ ∃ U, Laid S ls U ∧ Laid U ms T := by
  induction ls generalizing S with
  | nil => simp [Laid]
  | cons l ls ih => simp only [List.cons_append, Laid, ih]; tauto

theorem LaidLine.laid (h : LaidLine S l T) : Laid S [l] T :=
  ⟨T, h, rfl⟩

theorem Laid.line (h : Laid S ls T) : ∀ l ∈ ls, ∀ c ∈ l.text.toList, c ≠ '\t' ∧ c ≠ '\n' := by
  induction ls generalizing S with
  | nil => simp
  | cons l ls ih =>
    obtain ⟨U, hl, hls⟩ := h
    exact List.forall_mem_cons.2 ⟨hl.piece.line, ih hls⟩

/-- A line that closes nothing that is open before it. -/
theorem laidLine_of_piece {text : String} (h : Piece [] text T) (S : List Char) :
    LaidLine S ⟨S.length, text⟩ (T ++ S) where
  piece := h.within S
  indent := by
    cases hcs : text.toList with
    | nil => simp [stillOpen]
    | cons c cs => simp [stillOpen, h.signOf_head hcs]

/-- A text that closes a bracket with its first character and is inline after
it. -/
def Closes (close : Char) (text : String) : Prop :=
  signOf close = .closing ∧ ∃ rest, text.toList = close :: rest.toList ∧ Inline rest

theorem closes_round : Closes ')' ")" :=
  ⟨rfl, "", by decide, inline_empty⟩

theorem closes_square : Closes ']' "]" :=
  ⟨rfl, "", by decide, inline_empty⟩

theorem closes_curly : Closes '\x7d' "\x7d" :=
  ⟨rfl, "", by decide, inline_empty⟩

theorem Closes.append {close : Char} {text ending : String} (h : Closes close text)
    (hending : Inline ending) : Closes close (text ++ ending) := by
  obtain ⟨hclose, rest, htext, hrest⟩ := h
  refine ⟨hclose, rest ++ ending, ?_, hrest.append hending⟩
  rw [String.toList_append, String.toList_append, htext, List.cons_append]

theorem Closes.laidLine {close : Char} {text : String} (h : Closes close text) (S : List Char) :
    LaidLine (close :: S) ⟨S.length, text⟩ S := by
  obtain ⟨hclose, rest, htext, hrest⟩ := h
  refine ⟨⟨?_, ?_⟩, ?_⟩ <;> rw [htext]
  · have hstep : step? ⟨.code, close :: S⟩ close = some ⟨.code, S⟩ := by
      simp [step?, stepCode?, hclose]
    rw [read?_cons, hstep]
    exact (hrest.within S).read
  · have hmark : close ≠ '\t' ∧ close ≠ '\n' := by
      constructor <;> rintro rfl <;> cases hclose
    exact List.forall_mem_cons.2 ⟨hmark, hrest.line⟩
  · simp [stillOpen, hclose]

/-! ## Lines as they are written -/

theorem toList_write (l : Line) :
    l.write.toList = List.replicate l.indent '\t' ++ l.text.toList := by
  simp [Line.write, Line.tab, String.toList_join, List.flatMap_replicate]

theorem read?_tabs (S : List Char) (n : Nat) :
    read? ⟨.code, S⟩ (List.replicate n '\t') = some ⟨.code, S⟩ := by
  induction n with
  | zero => rfl
  | succ n ih => exact ih

theorem LaidLine.read?_write (h : LaidLine S l T) :
    read? ⟨.code, S⟩ l.write.toList = some ⟨.code, T⟩ := by
  rw [toList_write, read?_append_of_eq_some (read?_tabs S l.indent), h.piece.read]

theorem Laid.read?_joined (h : Laid S ls T) :
    read? ⟨.code, S⟩ (Language.joined (ls.map Line.write)).toList = some ⟨.code, T⟩ := by
  induction ls generalizing S with
  | nil =>
    cases h
    rfl
  | cons l ls ih =>
    obtain ⟨U, hl, hls⟩ := h
    cases ls with
    | nil =>
      cases hls
      simpa [Language.joined] using hl.read?_write
    | cons m ms =>
      rw [Language.joined, List.map_cons, List.map_cons, String.intercalate_cons_cons,
        String.toList_append, String.toList_append, List.append_assoc,
        read?_append_of_eq_some hl.read?_write]
      -- a line feed changes nothing in code
      exact ih hls

theorem write_tabs (h : ∀ c ∈ l.text.toList, c ≠ '\t' ∧ c ≠ '\n') :
    (leadingTabs l.write).length = l.indent ∧ afterTabs l.write = l.text.toList := by
  have htabs : ∀ c ∈ List.replicate l.indent '\t', (c == '\t') = true := by simp
  rw [leadingTabs, afterTabs, toList_write, List.takeWhile_append_of_pos htabs,
    List.dropWhile_append_of_pos htabs]
  cases hcs : l.text.toList with
  | nil => simp
  | cons c cs =>
    rw [hcs] at h
    simp [(h c List.mem_cons_self).1]

/-- **Lines with the right indentation are well laid out** when they are
written. -/
theorem Laid.wellLaidOut (h : Laid [] ls []) : WellLaidOut (ls.map Line.write) where
  unbroken := by
    intro line hline hbreak
    obtain ⟨l, hl, rfl⟩ := List.mem_map.1 hline
    rw [toList_write] at hbreak
    rcases List.mem_append.1 hbreak with hbreak | hbreak
    · cases List.eq_of_mem_replicate hbreak
    · exact (h.line l hl _ hbreak).2 rfl
  balanced := h.read?_joined
  indented := by
    intro above line below hlines
    obtain ⟨ls₁, ls₂, rfl, rfl, htail⟩ := List.map_eq_append_iff.1 hlines
    obtain ⟨l, ls₃, rfl, rfl, rfl⟩ := List.map_eq_cons_iff.1 htail
    obtain ⟨U, habove, V, hl, -⟩ := laid_append.1 h
    obtain ⟨hindent, htext⟩ := write_tabs hl.piece.line
    refine ⟨U, habove.read?_joined, ?_⟩
    rw [hindent, htext, hl.indent]

/-! ## Expressions -/

/-- Lines of which only the last one opens a bracket. -/
def OpensGroup (close : Char) : String → List String → Prop
  | head, [] => Piece [] head [close]
  | head, next :: more => Inline head ∧ OpensGroup close next more

/-- The opening lines of a group and the text that closes it, with the same
bracket. -/
def IsGroup (opening : String × List String) (ending : String) : Prop :=
  ∃ close, OpensGroup close opening.1 opening.2 ∧ Closes close ending

theorem isGroup_of_piece {close : Char} {head ending : String} (h : Piece [] head [close])
    (hclose : Closes close ending) : IsGroup (head, []) ending :=
  ⟨close, h, hclose⟩

theorem isGroup_of_inline {close : Char} {head next ending : String} (hhead : Inline head)
    (h : Piece [] next [close]) (hclose : Closes close ending) : IsGroup (head, [next]) ending :=
  ⟨close, ⟨hhead, h⟩, hclose⟩

/-- An expression whose pieces are in order. -/
inductive WellFormed : Expression → Prop
  | leaf {text : String} : Inline text → WellFormed (.leaf text)
  | group {head ending : String} {more : List String} {members : List (String × Expression)} :
      IsGroup (head, more) ending → (∀ m ∈ members, Inline m.1) →
      (∀ m ∈ members, WellFormed m.2) → WellFormed (.group head more members ending)

theorem laid_opensGroup {close : Char} {start head : String} {more : List String}
    (hstart : Inline start) (h : OpensGroup close head more) (S : List Char) :
    Laid S (⟨S.length, start ++ head⟩ :: more.map fun text => ⟨S.length, text⟩) (close :: S) := by
  induction more generalizing start head with
  | nil => exact (laidLine_of_piece (hstart.append h) S).laid
  | cons next more ih =>
    obtain ⟨hhead, hmore⟩ := h
    refine ⟨S, laidLine_of_piece (hstart.append hhead) S, ?_⟩
    simpa using ih inline_empty hmore

/-- **An expression is laid out** when its pieces are in order. -/
theorem WellFormed.laid {e : Expression} (h : WellFormed e) (S : List Char) (start ending : String)
    (hstart : Inline start) (hending : Inline ending) :
    Laid S (e.lines S.length start ending) S := by
  induction h generalizing S start ending with
  | leaf htext =>
    exact (laidLine_of_piece ((hstart.append htext).append hending) S).laid
  | @group head last more members hgroup hnames hmembers ih =>
    obtain ⟨close, hopens, hcloses⟩ := hgroup
    have hlines : ∀ ms : List (String × Expression), ms ⊆ members →
        Laid (close :: S) (Expression.memberLines (S.length + 1) ms) (close :: S) := by
      intro ms hms
      induction ms with
      | nil => rfl
      | cons m ms ihms =>
        obtain ⟨hm, hms⟩ := List.cons_subset.1 hms
        rw [Expression.memberLines]
        exact laid_append.2 ⟨_, ih m hm (close :: S) m.1 "," (hnames m hm) (by decide), ihms hms⟩
    have hopening := laid_opensGroup hstart hopens S
    have hclosing := (hcloses.append hending).laidLine S
    rw [Expression.lines]
    exact laid_append.2 ⟨_, laid_append.2 ⟨_, hopening, hlines members (List.Subset.refl _)⟩,
      hclosing.laid⟩

end Layout

end ApiSnippets
