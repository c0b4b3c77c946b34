import ApiSnippets.Proofs.Entries
import ApiSnippets.Proofs.Text.Cut
import ApiSnippets.Workspace
/-!
# Writing into a tree of files

A file that is written changes what is read at its own place and nothing else.
The folders are the same afterwards, so every path leads to where it led
before, and what can be written stays what could be written. A path that ends
in an ordinary name leads to that name in a folder, whatever is in front, and
a path that is made tidy leads to where it led.
-/

namespace ApiSnippets

namespace Text

/-! ## Pieces -/

theorem pieces_ne_nil (s : String) : pieces '/' s ≠ [] := by
  simpa [pieces] using splitAll_ne_nil '/' s.toList

theorem pieces_intercalate {names : List String} (hne : names ≠ [])
    (h : ∀ n ∈ names, '/' ∉ n.toList) : pieces '/' (String.intercalate "/" names) = names := by
  have hsplit : splitAll '/' (List.intercalate ['/'] (names.map String.toList)) =
      names.map String.toList := splitAll_joined (by simpa using hne) (by simpa using h)
  rw [pieces, String.toList_intercalate]
  simpa [Function.comp_def] using congrArg (List.map String.ofList) hsplit

end Text

namespace Files

variable {f g : Files} {p q start : Place} {bs cs : Bytes} {name path : String}

/-! ## Folders -/

theorem isFolder_iff : f.isFolder p = true ↔
    p = [] ∨ (∃ q ∈ f.folders, p <+: q) ∨ ∃ q ∈ f.contents.keys, p <+: q ∧ p ≠ q := by
  simp [isFolder, Entries.keys, or_assoc]

/-- What is above a folder is a folder. -/
theorem isFolder_of_prefix (h : f.isFolder q = true) (hp : p <+: q) : f.isFolder p = true := by
  rw [isFolder_iff] at h ⊢
  rcases h with rfl | ⟨r, hr, hq⟩ | ⟨r, hr, hq, hne⟩
  · exact .inl (List.prefix_nil.1 hp)
  · exact .inr (.inl ⟨r, hr, hp.trans hq⟩)
  · refine .inr (.inr ⟨r, hr, hp.trans hq, ?_⟩)
    rintro rfl
    exact hne (hq.eq_of_length_le hp.length_le)

/-- Two trees have the same folders. -/
def SameFolders (f g : Files) : Prop :=
  ∀ p, f.isFolder p = g.isFolder p

/-- A file can be put at a place: its folder exists, and no folder is there. -/
def Writable (f : Files) (p : Place) : Prop :=
  p ≠ [] ∧ p.all isName = true ∧ f.isFolder p = false ∧ f.isFolder p.dropLast = true

theorem Writable.of_sameFolders (h : SameFolders f g) (hp : f.Writable p) : g.Writable p := by
  unfold Writable at hp ⊢
  rwa [← h, ← h]

theorem write?_eq_some : f.write? p bs = some g ↔
    f.Writable p ∧ { f with contents := Entries.put p bs f.contents } = g := by
  unfold write? Writable
  split
  · next h =>
    simp only [reduceCtorEq, false_iff, not_and]
    rintro ⟨hne, hnames, hfile, hfolder⟩
    simp_all
  · next h => simp_all

/-- **A file that is written makes no folder and removes none.** -/
theorem sameFolders_of_write? (h : f.write? p bs = some g) : SameFolders g f := by
  obtain ⟨⟨hne, -, -, hfolder⟩, rfl⟩ := write?_eq_some.1 h
  intro q
  rw [Bool.eq_iff_iff]
  constructor
  · intro hq
    rw [isFolder_iff] at hq
    rcases hq with rfl | hq | ⟨r, hr, hqr, hne'⟩
    · exact isFolder_iff.2 (.inl rfl)
    · exact isFolder_iff.2 (.inr (.inl hq))
    rcases Entries.mem_keys_put.1 hr with rfl | hr
    · -- what is above the new file is its folder or above that
      obtain ⟨t, rfl⟩ := hqr
      have ht : t ≠ [] := by
        rintro rfl
        simp at hne'
      rw [List.dropLast_append_of_ne_nil ht] at hfolder
      exact isFolder_of_prefix hfolder (List.prefix_append q t.dropLast)
    · exact isFolder_iff.2 (.inr (.inr ⟨r, hr, hqr, hne'⟩))
  · intro hq
    rw [isFolder_iff] at hq ⊢
    simp only [Entries.mem_keys_put]
    rcases hq with rfl | hq | ⟨r, hr, hqr⟩
    · exact .inl rfl
    · exact .inr (.inl hq)
    · exact .inr (.inr ⟨r, .inr hr, hqr⟩)

theorem contents_of_write? (h : f.write? p bs = some g) :
    g.contents = Entries.put p bs f.contents := by
  obtain ⟨-, rfl⟩ := write?_eq_some.1 h
  rfl

theorem read?_of_write? (h : f.write? p bs = some g) (q : Place) :
    g.read? q = if q = p then some bs else f.read? q := by
  obtain ⟨-, rfl⟩ := write?_eq_some.1 h
  simp [read?]

/-! ## Making folders -/

theorem makeFolder?_eq_some : f.makeFolder? p = some g ↔
    (p.all isName = true ∧ ∀ q ∈ f.contents.keys, ¬ q <+: p) ∧
      { f with folders := p :: f.folders } = g := by
  unfold makeFolder?
  split
  · next h =>
    simp only [reduceCtorEq, false_iff, not_and]
    rintro ⟨hnames, hfree⟩
    simp only [hnames, Bool.not_true, Bool.false_or, List.any_eq_true, List.isPrefixOf_iff_prefix]
      at h
    obtain ⟨e, he, hp⟩ := h
    exact (hfree e.1 (List.mem_map_of_mem he) hp).elim
  · next h =>
    have hfree : p.all isName = true ∧ ∀ q ∈ f.contents.keys, ¬ q <+: p := by
      simpa [Entries.keys] using h
    rw [Option.some.injEq]
    exact ⟨fun hg => ⟨hfree, hg⟩, And.right⟩

/-- **A folder that is made is still there, and can be made again, after a
file is written.** Making it again changes nothing that is looked at. -/
theorem exists_makeFolder?_of_write? {made : Files} (h : f.makeFolder? q = some made)
    (hg : made.write? p bs = some g) :
    ∃ again, g.makeFolder? q = some again ∧ again.contents = g.contents ∧
      again.SameFolders g := by
  obtain ⟨⟨hnames, hfree⟩, rfl⟩ := makeFolder?_eq_some.1 h
  obtain ⟨⟨-, -, hfile, -⟩, rfl⟩ := write?_eq_some.1 hg
  refine ⟨_, makeFolder?_eq_some.2 ⟨⟨hnames, fun r hr => ?_⟩, rfl⟩, rfl, fun r => ?_⟩
  · rcases Entries.mem_keys_put.1 hr with rfl | hr
    · -- the place of the file is no folder, and all above the folder is
      intro hprefix
      have hfolder : isFolder { f with folders := q :: f.folders } r = true :=
        isFolder_iff.2 (.inr (.inl ⟨q, List.mem_cons_self, hprefix⟩))
      exact absurd hfolder (by simp [hfile])
    · exact hfree r hr
  · rw [Bool.eq_iff_iff, isFolder_iff, isFolder_iff]
    simp

/-! ## Paths -/

theorem locate_of_sameFolders (h : SameFolders f g) (start : Place) (path : String) :
    f.locate start path = g.locate start path := by
  have henter : f.enter = g.enter := by
    funext p name
    simp only [enter, h p]
  simp only [locate, henter]

/-- Whether a name of a path leads anywhere: a tidy path has no other names. -/
def leads (name : String) : Bool :=
  name != "" && name != "."

theorem eq_of_enter (hname : leads name = false) (h : f.enter p name = some q) : p = q := by
  unfold enter at h
  split at h
  · cases h
  · simp only [leads, Bool.and_eq_false_iff, bne_eq_false_iff_eq] at hname
    simpa [hname] using h

theorem foldlM_enter_filter {names : List String} (h : names.foldlM f.enter p = some q) :
    (names.filter leads).foldlM f.enter p = some q := by
  induction names generalizing p with
  | nil => exact h
  | cons name names ih =>
    rw [List.foldlM_cons, Option.bind_eq_bind, Option.bind_eq_some_iff] at h
    obtain ⟨r, hr, h⟩ := h
    cases hname : leads name with
    | false =>
      obtain rfl := eq_of_enter hname hr
      simpa [hname] using ih h
    | true => simp [hname, hr, ih h]

theorem isFolder_of_enter (h : f.enter p name = some q) : f.isFolder p = true := by
  unfold enter at h
  split at h
  · cases h
  · next hfolder => simpa using hfolder

theorem enter_empty (h : f.isFolder p = true) : f.enter p "" = some p := by
  simp [enter, h]

theorem isFolder_nil : f.isFolder [] = true := by
  simp [isFolder]

theorem pieces_root (s : String) : Text.pieces '/' ("/" ++ s) = "" :: Text.pieces '/' s := by
  simp [Text.pieces, Text.splitAll]

theorem locate_text {names : List String} (h : ∀ n ∈ names, '/' ∉ n.toList) :
    f.locate start (Place.text names) = names.foldlM f.enter [] := by
  have hroot : Text.hasStart "/" ("/" ++ String.intercalate "/" names) = true := by
    simp [Text.hasStart]
  rw [locate, Place.text, if_pos hroot, pieces_root, List.foldlM_cons, enter_empty isFolder_nil]
  cases names with
  | nil => exact (enter_empty (f := f) isFolder_nil : _)
  | cons name names => rw [Text.pieces_intercalate (by simp) h]; rfl

theorem locate_dot (h : f.isFolder start = true) : f.locate start "." = some start := by
  have hpieces : Text.pieces '/' "." = ["."] := by decide
  have hroot : Text.hasStart "/" "." = false := by decide
  rw [locate, hpieces, if_neg (by simp [hroot])]
  simp [enter, h]

theorem locate_intercalate {names : List String} (hne : names ≠ [])
    (h : ∀ n ∈ names, '/' ∉ n.toList ∧ n ≠ "") :
    f.locate start (String.intercalate "/" names) = names.foldlM f.enter start := by
  have hroot : Text.hasStart "/" (String.intercalate "/" names) = false := by
    obtain ⟨name, names, rfl⟩ := List.exists_cons_of_ne_nil hne
    obtain ⟨hslash, hname⟩ := h name List.mem_cons_self
    obtain ⟨c, cs, hcs⟩ := List.exists_cons_of_ne_nil (mt String.toList_eq_nil_iff.1 hname)
    rw [hcs] at hslash
    have hc : '/' ≠ c := fun hc => hslash (hc ▸ List.mem_cons_self)
    have hstart : ∀ ds, ['/'].isPrefixOf (c :: ds) = false := fun ds => by
      simp [List.isPrefixOf, hc]
    cases names <;> simp [Text.hasStart, List.intercalate, hcs, hstart]
  rw [locate, if_neg (by simp [hroot]), Text.pieces_intercalate hne fun n hn => (h n hn).1]

/-- **A tidy path leads to where the path leads.** -/
theorem locate_tidy (h : f.locate start path = some p) : f.locate start (tidy path) = some p := by
  have hsimple : ∀ n ∈ (Text.pieces '/' path).filter leads, '/' ∉ n.toList ∧ n ≠ "" := by
    intro n hn
    obtain ⟨hmem, hleads⟩ := List.mem_filter.1 hn
    obtain ⟨cs, hcs, rfl⟩ := List.mem_map.1 hmem
    refine ⟨by simpa using Text.not_mem_of_mem_splitAll _ hcs, fun hempty => ?_⟩
    simp [hempty, leads] at hleads
  have htidy : tidy path =
      if Text.hasStart "/" path then Place.text ((Text.pieces '/' path).filter leads)
      else if ((Text.pieces '/' path).filter leads).isEmpty then "."
      else String.intercalate "/" ((Text.pieces '/' path).filter leads) := rfl
  have hfold := foldlM_enter_filter h
  rw [htidy]
  split
  · next hroot =>
    rw [if_pos hroot] at hfold
    rwa [locate_text fun n hn => (hsimple n hn).1]
  · next hroot =>
    rw [if_neg hroot] at hfold
    split
    · next hempty =>
      -- the path leads back to where it starts, which has to be a folder
      rw [List.isEmpty_iff.1 hempty] at hfold
      obtain rfl : start = p := by simpa using hfold
      rw [locate, if_neg hroot] at h
      obtain ⟨first, more, hpieces⟩ := List.exists_cons_of_ne_nil (Text.pieces_ne_nil path)
      rw [hpieces, List.foldlM_cons, Option.bind_eq_bind, Option.bind_eq_some_iff] at h
      obtain ⟨_, hfirst, -⟩ := h
      exact locate_dot (isFolder_of_enter hfirst)
    · next hne => rwa [locate_intercalate (by simpa using hne) hsimple]

/-! ## Paths that end in a name -/

/-- A name that stands for an entry of a folder and nothing else. -/
def IsEntry (name : String) : Prop :=
  '/' ∉ name.toList ∧ name ≠ "" ∧ name ≠ "." ∧ name ≠ ".."

theorem pieces_append (folder : String) (h : '/' ∉ name.toList) :
    Text.pieces '/' (folder ++ "/" ++ name) = Text.pieces '/' folder ++ [name] := by
  have hlist : (folder ++ "/" ++ name).toList = folder.toList ++ '/' :: name.toList := by
    simp
  rw [Text.pieces, hlist, Text.splitAll_append, Text.splitAll_of_not_mem h]
  simp [Text.pieces]

theorem isEntry_of_length (hslash : '/' ∉ name.toList) (h : 2 < name.toList.length) :
    IsEntry name := by
  refine ⟨hslash, ?_, ?_, ?_⟩ <;> rintro rfl <;> exact absurd h (by decide)

/-- Whatever stands in front of it, a text without slashes ends the last name
of a path. -/
theorem exists_pieces_of_end (folder name : String) {ending : String} (h : '/' ∉ ending.toList) :
    ∃ names first,
      Text.pieces '/' (folder ++ "/" ++ (name ++ ending)) = names ++ [first ++ ending] ∧
      '/' ∉ (first ++ ending).toList := by
  have hmem : '/' ∈ (folder ++ "/" ++ name).toList := by simp
  obtain ⟨ds, es, hcut, hes⟩ := Text.exists_afterLast hmem
  have hpath : folder ++ "/" ++ (name ++ ending) =
      String.ofList ds ++ "/" ++ (String.ofList es ++ ending) := by
    rw [← String.append_assoc, ← String.toList_inj, String.toList_append, hcut]
    simp
  have hslash : '/' ∉ (String.ofList es ++ ending).toList := by simp [hes, h]
  exact ⟨_, _, by rw [hpath, pieces_append _ hslash], hslash⟩

/-- A path that is made tidy still ends in the name it ended in. -/
theorem pieces_tidy {names : List String} (hname : IsEntry name)
    (hpath : Text.pieces '/' path = names ++ [name]) :
    ∃ more, Text.pieces '/' (tidy path) = more ++ [name] := by
  obtain ⟨hslash, hempty, hdot, -⟩ := hname
  have hkept : (Text.pieces '/' path).filter (fun n => n != "" && n != ".") =
      names.filter (fun n => n != "" && n != ".") ++ [name] := by
    simp [hpath, hempty, hdot]
  have hjoin : ∀ ns : List String, ∃ more,
      Text.pieces '/' (String.intercalate "/" (ns ++ [name])) = more ++ [name] := by
    intro ns
    obtain ⟨more, hmore⟩ := Text.splitAll_intercalate hslash (ns.map String.toList)
    refine ⟨more.map String.ofList, ?_⟩
    rw [Text.pieces, String.toList_intercalate, List.map_append]
    simp only [List.map_cons, List.map_nil] at hmore ⊢
    simp [hmore]
  unfold tidy
  simp only [hkept]
  split
  · obtain ⟨more, hmore⟩ := hjoin (names.filter fun n => n != "" && n != ".")
    refine ⟨"" :: more, ?_⟩
    rw [Place.text, pieces_root, hmore, List.cons_append]
  · simpa using hjoin (names.filter fun n => n != "" && n != ".")

/-- **A path that ends in the name of an entry leads to that entry** of some
folder. -/
theorem locate_of_pieces {names : List String} (hname : IsEntry name)
    (hpath : Text.pieces '/' path = names ++ [name]) (h : f.locate start path = some p) :
    ∃ d, p = d ++ [name] := by
  obtain ⟨-, hempty, hdot, hdots⟩ := hname
  unfold locate at h
  rw [hpath, List.foldlM_append] at h
  obtain ⟨d, -, h⟩ := Option.bind_eq_some_iff.1 h
  have henter : f.enter d name = some p := by simpa using h
  unfold enter at henter
  split at henter
  · cases henter
  · simp [hempty, hdot, hdots] at henter
    exact ⟨d, henter.symm⟩

theorem enter_entry (hname : IsEntry name) :
    f.enter p name = if f.isFolder p then some (p ++ [name]) else none := by
  obtain ⟨-, hempty, hdot, hdots⟩ := hname
  cases h : f.isFolder p <;> simp [enter, h, hempty, hdot, hdots]

theorem foldlM_enter_entries {names : List String} (hnames : ∀ n ∈ names, IsEntry n)
    (h : f.isFolder (p ++ names) = true) : names.foldlM f.enter p = some (p ++ names) := by
  induction names generalizing p with
  | nil => simp
  | cons name names ih =>
    obtain ⟨hname, hnames⟩ := List.forall_mem_cons.1 hnames
    have hp : f.isFolder p = true := isFolder_of_prefix h (List.prefix_append p _)
    have hnext : p ++ name :: names = p ++ [name] ++ names := by simp
    rw [hnext] at h ⊢
    rw [List.foldlM_cons, enter_entry hname, if_pos hp]
    exact ih hnames h

theorem eq_of_foldlM_enter_entries {names : List String} (hnames : ∀ n ∈ names, IsEntry n)
    (h : names.foldlM f.enter p = some q) : q = p ++ names := by
  induction names generalizing p with
  | nil => simpa using h.symm
  | cons name names ih =>
    obtain ⟨hname, hnames⟩ := List.forall_mem_cons.1 hnames
    rw [List.foldlM_cons, enter_entry hname] at h
    split at h
    · simpa using ih hnames h
    · cases h

/-- A path from the root of ordinary names leads where it says, if the folder
it goes through last is there. -/
theorem locate_text_entry {d : Place} (hd : ∀ n ∈ d, IsEntry n) (hname : IsEntry name) :
    f.locate start (Place.text (d ++ [name])) =
      if f.isFolder d then some (d ++ [name]) else none := by
  have hnames : ∀ n ∈ d ++ [name], '/' ∉ n.toList :=
    List.forall_mem_append.2 ⟨fun n hn => (hd n hn).1, List.forall_mem_singleton.2 hname.1⟩
  rw [locate_text hnames, List.foldlM_append]
  cases hfold : d.foldlM f.enter [] with
  | none =>
    rw [if_neg]
    · rfl
    · intro hfolder
      simp [foldlM_enter_entries (p := []) hd hfolder] at hfold
  | some q =>
    obtain rfl : q = d := eq_of_foldlM_enter_entries hd hfold
    simp [enter_entry hname]

end Files

namespace Workspace

open Files

variable {w w' : Workspace} {p : Place} {bs : Bytes} {folder name other : String}

/-- A file can be put at a path. -/
def CanWrite (w : Workspace) (path : String) : Prop :=
  ∃ p, w.locate path = some p ∧ w.files.Writable p

theorem write?_eq_some {path : String} : w.write? path bs = some w' ↔
    ∃ p files, w.locate path = some p ∧ w.files.write? p bs = some files ∧
      { w with files := files } = w' := by
  simp only [write?, Option.bind_eq_bind, Option.bind_eq_some_iff, Option.pure_def,
    Option.some.injEq]
  constructor
  · rintro ⟨p, hp, files, hfiles, hw⟩
    exact ⟨p, files, hp, hfiles, hw⟩
  · rintro ⟨p, files, hp, hfiles, hw⟩
    exact ⟨p, hp, files, hfiles, hw⟩

theorem isSome_write?_iff {path : String} : (w.write? path bs).isSome = true ↔ w.CanWrite path := by
  rw [Option.isSome_iff_exists]
  constructor
  · rintro ⟨w', h⟩
    obtain ⟨p, files, hp, hfiles, -⟩ := write?_eq_some.1 h
    exact ⟨p, hp, (Files.write?_eq_some.1 hfiles).1⟩
  · rintro ⟨p, hp, hwritable⟩
    exact ⟨_, write?_eq_some.2 ⟨p, _, hp, Files.write?_eq_some.2 ⟨hwritable, rfl⟩, rfl⟩⟩

theorem exists_write? {path : String} (h : w.CanWrite path) (bs : Bytes) :
    ∃ w', w.write? path bs = some w' :=
  Option.isSome_iff_exists.1 (isSome_write?_iff.2 h)

/-- What stays when files are written: the working folder and the folders. -/
structure SameFolders (w w' : Workspace) : Prop where
  folder : w.folder = w'.folder
  folders : w.files.SameFolders w'.files

theorem SameFolders.locate (h : SameFolders w w') (path : String) :
    w.locate path = w'.locate path := by
  rw [Workspace.locate, Workspace.locate, h.folder, locate_of_sameFolders h.folders]

theorem SameFolders.canWrite (h : SameFolders w w') {path : String} :
    w.CanWrite path ↔ w'.CanWrite path := by
  unfold CanWrite
  simp only [h.locate]
  refine exists_congr fun p => and_congr_right fun _ => ⟨?_, ?_⟩
  · exact Writable.of_sameFolders h.folders
  · exact Writable.of_sameFolders fun q => (h.folders q).symm

theorem sameFolders_of_write? {path : String} (h : w.write? path bs = some w') :
    SameFolders w' w := by
  obtain ⟨p, files, -, hfiles, rfl⟩ := write?_eq_some.1 h
  exact ⟨rfl, Files.sameFolders_of_write? hfiles⟩

/-- The place of an entry of a folder ends in its name. -/
theorem locate_entry (hname : IsEntry name) (h : w.locate (folder ++ "/" ++ name) = some p) :
    ∃ d, p = d ++ [name] :=
  locate_of_pieces hname (pieces_append folder hname.1) h

/-- **Entries with different names are in different places.** -/
theorem eq_of_locate_eq (hname : IsEntry name) (hother : IsEntry other)
    (h : w.locate (folder ++ "/" ++ name) = some p)
    (h' : w.locate (folder ++ "/" ++ other) = some p) : name = other := by
  obtain ⟨d, rfl⟩ := locate_entry hname h
  obtain ⟨d', hp⟩ := locate_entry hother h'
  exact (List.append_inj' hp rfl).2 |> List.singleton_inj.1

/-- **A file that is written leaves the files of other names**, whichever folder
they are in. -/
theorem read?_of_write?_ne {path : String} {names : List String} (hname : IsEntry name)
    (hpath : Text.pieces '/' path = names ++ [name]) (hne : other ≠ name)
    (h : w.write? path bs = some w') (d : Place) :
    w'.files.read? (d ++ [other]) = w.files.read? (d ++ [other]) := by
  obtain ⟨p, files, hp, hfiles, rfl⟩ := write?_eq_some.1 h
  obtain ⟨d', rfl⟩ := locate_of_pieces hname hpath hp
  rw [read?_of_write? hfiles, if_neg]
  intro hsame
  exact hne (List.singleton_inj.1 (List.append_inj' hsame rfl).2)

/-- **A file that is written leaves the texts of its neighbours.** -/
theorem text_of_write? (hname : IsEntry name) (hother : IsEntry other) (hne : name ≠ other)
    (h : w.write? (folder ++ "/" ++ name) bs = some w') :
    w'.text (folder ++ "/" ++ other) = w.text (folder ++ "/" ++ other) := by
  unfold text
  rw [(sameFolders_of_write? h).locate]
  cases hq : w.locate (tidy (folder ++ "/" ++ other)) with
  | none => rfl
  | some q =>
    obtain ⟨more, hmore⟩ := pieces_tidy hother (pieces_append folder hother.1)
    obtain ⟨d, rfl⟩ := locate_of_pieces hother hmore hq
    simp only [Files.text, read?_of_write?_ne hname (pieces_append folder hname.1) hne.symm h]

/-- **A file that is written is read back.** -/
theorem text_of_write?_self {path : String} (h : w.write? path bs = some w') :
    w'.text path = (Text.ofFile? bs).elim .garbled .text := by
  have hlocate := (sameFolders_of_write? h).locate
  obtain ⟨p, files, hp, hfiles, rfl⟩ := write?_eq_some.1 h
  have htidy : w.locate (tidy path) = some p := locate_tidy hp
  unfold text
  rw [hlocate, htidy]
  simp only [Files.text, read?_of_write? hfiles, if_true]
  cases Text.ofFile? bs <;> rfl

/-- The text at a path from the root of ordinary names is that of the file it
says. -/
theorem text_entry {d : Place} (hd : ∀ n ∈ d, IsEntry n) (hname : IsEntry name) :
    w.text (Place.text (d ++ [name])) = w.files.text (d ++ [name]) := by
  have hnames : ∀ n ∈ d ++ [name], IsEntry n :=
    List.forall_mem_append.2 ⟨hd, List.forall_mem_singleton.2 hname⟩
  have htidy : tidy (Place.text (d ++ [name])) = Place.text (d ++ [name]) := by
    have hroot : Text.hasStart "/" (Place.text (d ++ [name])) = true := by
      simp [Place.text, Text.hasStart]
    have hkept : (d ++ [name]).filter (fun n => n != "" && n != ".") = d ++ [name] :=
      List.filter_eq_self.2 fun n hn => by simp [(hnames n hn).2.1, (hnames n hn).2.2.1]
    have hpieces : Text.pieces '/' (Place.text (d ++ [name])) = "" :: (d ++ [name]) := by
      rw [Place.text, pieces_root, Text.pieces_intercalate (by simp) fun n hn => (hnames n hn).1]
    simp only [tidy, hroot, hpieces, List.filter_cons_of_neg, bne_self_eq_false, Bool.false_and,
      Bool.false_eq_true, not_false_eq_true, hkept, if_true]
  rw [text, htidy, Workspace.locate, locate_text_entry hd hname]
  cases hfolder : w.files.isFolder d with
  | true => rfl
  | false =>
    -- without its folder there is no file
    have habsent : w.files.read? (d ++ [name]) = none := by
      rw [← Option.not_isSome_iff_eq_none]
      intro hsome
      have hfound : w.files.isFolder d = true :=
        isFolder_iff.2 (.inr (.inr ⟨d ++ [name], Entries.isSome_get?_iff.1 hsome, by simp⟩))
      rw [hfolder] at hfound
      cases hfound
    simp only [Files.text, habsent]
    rfl

/-- The folder a path stands for when it is made. -/
def folderPlace (w : Workspace) (path : String) : Place :=
  (if Text.hasStart "/" path then [] else w.folder) ++ (Text.pieces '/' path).filter (· ≠ "")

theorem makeFolder?_eq_some {path : String} : w.makeFolder? path = some w' ↔
    ∃ files, w.files.makeFolder? (w.folderPlace path) = some files ∧
      { w with files := files } = w' := by
  simp only [makeFolder?, folderPlace, Option.bind_eq_bind, Option.bind_eq_some_iff,
    Option.pure_def, Option.some.injEq]

/-- A folder that is made leaves every file. -/
theorem read?_of_makeFolder? {path : String} (h : w.makeFolder? path = some w') (p : Place) :
    w'.files.read? p = w.files.read? p := by
  obtain ⟨files, hfiles, rfl⟩ := makeFolder?_eq_some.1 h
  obtain ⟨-, rfl⟩ := Files.makeFolder?_eq_some.1 hfiles
  rfl

/-- **A file can be written a second time** in the folder that is made for it,
and that changes no file. -/
theorem exists_writeIn?_of_writeIn? (h : w.writeIn? folder name bs = some w') :
    (w'.makeFolder? folder).isSome = true ∧
      ∃ w'', w'.writeIn? folder name bs = some w'' ∧ w''.files.contents = w'.files.contents := by
  rw [writeIn?, Option.bind_eq_bind, Option.bind_eq_some_iff] at h
  obtain ⟨made, hmade, hwrite⟩ := h
  have hsame := sameFolders_of_write? hwrite
  obtain ⟨built, hfiles, rfl⟩ := makeFolder?_eq_some.1 hmade
  obtain ⟨p, files, hp, hput, rfl⟩ := write?_eq_some.1 hwrite
  obtain ⟨again, hagain, hcontents, hfolders⟩ := exists_makeFolder?_of_write? hfiles hput
  have hremade : makeFolder? { w with files := files } folder =
      some { w with files := again } := makeFolder?_eq_some.2 ⟨again, hagain, rfl⟩
  have hfresh : SameFolders { w with files := again } { w with files := files } :=
    ⟨rfl, hfolders⟩
  have hcan : CanWrite { w with files := again } (folder ++ "/" ++ name) :=
    hfresh.canWrite.2 (hsame.canWrite.2 (isSome_write?_iff.1 (by rw [hwrite]; rfl)))
  obtain ⟨w'', hw''⟩ := exists_write? hcan bs
  refine ⟨by rw [hremade]; rfl, w'', by rw [writeIn?, hremade]; exact hw'', ?_⟩
  -- both files are put at the same place, the second time over the first
  obtain ⟨p', files', hp', hput', rfl⟩ := write?_eq_some.1 hw''
  rw [hfresh.locate, hsame.locate] at hp'
  obtain rfl := Option.some.inj (hp.symm.trans hp')
  show files'.contents = files.contents
  rw [contents_of_write? hput', hcontents, contents_of_write? hput, Entries.put_put]

end Workspace

end ApiSnippets
