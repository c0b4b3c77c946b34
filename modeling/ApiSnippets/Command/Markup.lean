import ApiSnippets.Text.Cut
/-!
# Tags in texts

A terminal shows a text in the styles that tags in it name: `[dim]` begins a
style, `[/dim]` ends it, and `[/]` ends the one that was begun last. What comes
of a text with tags is up to the terminal, which also refuses texts; here it is
any function (`Markup`). `Markup.untagged` is the one that goes by these rules
and shows no style: a tag that ends what was not begun has the text refused.
It breaks no lines, and it takes the name of a style for another style than
its short form.
-/

namespace ApiSnippets

/-- What a terminal shows for a text with tags, none when it refuses the
text. -/
abbrev Markup := String → Option String

namespace Markup

/-- Whether a tag can begin with a character. -/
def isTagStart (c : Char) : Bool :=
  ('a' ≤ c && c ≤ 'z') || c == '#' || c == '/' || c == '@'

/-- The name of the tag behind an opening bracket, and what follows it. A tag
goes to the first closing bracket, and no opening one comes before that. -/
def tag? : List Char → Option (List Char × List Char)
  | [] => none
  | c :: cs =>
    match Text.cutAt ']' cs with
    | (name, some rest) =>
      if isTagStart c && !name.contains '[' then some (c :: name, rest) else none
    | (_, none) => none

/-- The name of a style, as the name of another is compared with it. -/
def styleName (name : List Char) : List Char :=
  (Text.trim Text.isBlank (Text.cutAt '=' name).1).map Char.toLower

/-- The styles that are left after a tag, of those that were begun and not
ended; the last one comes first. None when the tag ends what was not begun. -/
def after? (name : List Char) (begun : List (List Char)) : Option (List (List Char)) :=
  match name with
  | '/' :: name =>
    let name := styleName name
    if name.isEmpty then if begun.isEmpty then none else some begun.tail
    else if begun.contains name then some (begun.erase name) else none
  | name => some (styleName name :: begun)

/-- What is shown of a text in which some styles were begun: the text without
its tags. A tag behind an odd number of backslashes is no tag, and half of the
backslashes before a tag are shown; before another bracket all but one are. The
fuel bounds the number of characters. -/
def shownFrom : Nat → List (List Char) → List Char → Option (List Char)
  | 0, _, _ => some []
  | _, _, [] => some []
  | fuel + 1, begun, c :: cs =>
    let slashes := (c :: cs).takeWhile (· == '\\')
    match (c :: cs).dropWhile (· == '\\') with
    | '[' :: behind =>
      match tag? behind with
      | some (name, rest) =>
        let kept := List.replicate (slashes.length / 2) '\\'
        if slashes.length % 2 = 1 then
          (shownFrom fuel begun rest).map fun shown => kept ++ '[' :: name ++ ']' :: shown
        else
          match after? name begun with
          | some begun => (shownFrom fuel begun rest).map (kept ++ ·)
          | none => none
      | none => (shownFrom fuel begun behind).map fun shown => slashes.tail ++ '[' :: shown
    | _ => (shownFrom fuel begun cs).map (c :: ·)

/-- **A text without its tags**, none when the tags are wrong. -/
def untagged : Markup := fun text =>
  (shownFrom text.toList.length [] text.toList).map String.ofList

end Markup

end ApiSnippets
