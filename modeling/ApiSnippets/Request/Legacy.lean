import ApiSnippets.Text.Cut
import ApiSnippets.Text.Case
/-!
# Legacy paths

Some paths have no template of their own because their shape is older than
the API description. A short table replaces their beginning by the template
that serves them; the first entry that applies wins. An entry describes whole
segments, in any letter case, and what follows them is kept.
-/

namespace ApiSnippets

namespace Path

/-- Whether a character is a lower-case letter or any other case of it. Two
letters have variants beyond ASCII: the dotted and dotless `i` and the long
`s`. -/
def isLetterForm (letter c : Char) : Bool :=
  c == letter || Text.lowerChar c == [letter] ||
    (letter == 'i' && (c == 'ı' || c == 'İ')) || (letter == 's' && c == 'ſ')

/-- What follows a beginning written in lower case, whatever case the
characters have. -/
def afterForm? : List Char → List Char → Option (List Char)
  | [], cs => some cs
  | w :: ws, c :: cs => if isLetterForm w c then afterForm? ws cs else none
  | _ :: _, [] => none

/-- What follows the owner of a drive: `/me` or `/users/` and a segment. -/
def afterOwner? (cs : List Char) : Option (List Char) :=
  match afterForm? "/users/".toList cs with
  | some rest => if (rest.takeWhile (· != '/')).isEmpty then none else some (rest.dropWhile (· != '/'))
  | none => afterForm? "/me".toList cs

/-- Whether a segment ends here. A line feed at the very end counts as the
end. -/
def atSegmentEnd : List Char → Bool
  | [] => true
  | ['\n'] => true
  | c :: _ => c == '/'

/-- The characters, when a segment ends before them. -/
def atBoundary? (cs : List Char) : Option (List Char) :=
  if atSegmentEnd cs then some cs else none

/-- A legacy beginning and what replaces it. -/
structure LegacyForm where
  /-- What follows the beginning, when the path has it. -/
  after? : List Char → Option (List Char)
  replacement : String

/-- The table of legacy beginnings: an item addressed by its file path, the
root of a drive, and the items of a drive, each below its owner. -/
def legacyForms : List LegacyForm := [
  ⟨fun cs => do
      let rest ← afterOwner? cs
      let file ← afterForm? "/drive/root:/".toList rest
      let rest ← (Text.cutAt ':' file).2
      atBoundary? rest,
    "/drives/\x7bdrive-id\x7d/items/\x7bdriveItem-id\x7d"⟩,
  ⟨fun cs => do
      let rest ← afterOwner? cs
      let rest ← afterForm? "/drive/root".toList rest
      atBoundary? rest,
    "/drives/\x7bdrive-id\x7d/items/root"⟩,
  ⟨fun cs => do
      let rest ← afterOwner? cs
      let rest ← afterForm? "/drive/items".toList rest
      atBoundary? rest,
    "/drives/\x7bdrive-id\x7d/items"⟩]

/-- The path with its legacy beginning replaced, itself when it has none. -/
def modernise (path : String) : String :=
  match legacyForms.findSome? fun r => (r.after? path.toList).map fun rest => (r, rest) with
  | some (r, rest) => r.replacement ++ String.ofList rest
  | none => path

end Path

end ApiSnippets
