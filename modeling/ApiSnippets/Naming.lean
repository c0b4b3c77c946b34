import ApiSnippets.Text.Case
import ApiSnippets.Text.Cut
/-!
# Naming

The casings of generated identifiers. Every accessor, property, class,
variable and import path goes through one rule for cutting a name into words,
so that the places which write a name and the places which predict it agree.

A word ends where a character other than an ASCII letter or digit stands,
where an upper-case letter follows a lower-case one or a digit, and inside a
run of upper-case letters before the one that starts a capitalised word.
-/

namespace ApiSnippets

namespace Naming

/-! ## Words -/

/-- An ASCII lower-case letter. -/
def isLower (c : Char) : Bool :=
  decide ('a' ≤ c) && decide (c ≤ 'z')

/-- An ASCII upper-case letter. -/
def isUpper (c : Char) : Bool :=
  decide ('A' ≤ c) && decide (c ≤ 'Z')

/-- An ASCII digit. -/
def isNumeral (c : Char) : Bool :=
  decide ('0' ≤ c) && decide (c ≤ '9')

/-- A character that belongs to a word. -/
def isWordChar (c : Char) : Bool :=
  isLower c || isUpper c || isNumeral c

/-- Whether a word ends between two neighbouring word characters, given what
comes after them. -/
def isBoundary (c d : Char) (after : List Char) : Bool :=
  isUpper d && (isLower c || isNumeral c || (isUpper c && (after.head?.any isLower)))

/-- A character put in front of the first word. -/
def extend (c : Char) : List (List Char) → List (List Char)
  | [] => [[c]]
  | w :: ws => (c :: w) :: ws

/-- The words of a name. -/
def wordsOf : List Char → List (List Char)
  | [] => []
  | c :: cs =>
    if isWordChar c then
      match cs with
      | [] => [[c]]
      | d :: after =>
        if !isWordChar d || isBoundary c d after then [c] :: wordsOf cs
        else extend c (wordsOf cs)
    else wordsOf cs

/-- The words of a name. -/
def words (name : String) : List String :=
  (wordsOf name.toList).map String.ofList

/-! ## Casings -/

/-- The words capitalised and joined. -/
def pascalChars (cs : List Char) : List Char :=
  (wordsOf cs).flatMap Text.capitalize

/-- The joined words with the first letter in lower case. -/
def camelChars (cs : List Char) : List Char :=
  Text.decapitalize (pascalChars cs)

/-- The words in lower case, joined by underscores. A digit in front gets an
underscore before it, and a name without words becomes `value`. -/
def snakeChars (cs : List Char) : List Char :=
  match Text.join ['_'] ((wordsOf cs).map Text.lowerChars) with
  | [] => "value".toList
  | c :: rest => if Text.isDigit c then '_' :: c :: rest else c :: rest

/-- `message-id` becomes `MessageId`. -/
def pascal (name : String) : String :=
  String.ofList (pascalChars name.toList)

/-- `message-id` becomes `messageId`. -/
def camel (name : String) : String :=
  String.ofList (camelChars name.toList)

/-- `displayName` becomes `display_name`. -/
def snake (name : String) : String :=
  String.ofList (snakeChars name.toList)

/-- The words in lower case, joined by hyphens. -/
def kebab (name : String) : String :=
  String.ofList (Text.join ['-'] ((wordsOf name.toList).map Text.lowerChars))

/-- The name with its first character in upper case. -/
def firstUpper (name : String) : String :=
  String.ofList (Text.capitalize name.toList)

/-- The name with its first character in lower case. -/
def firstLower (name : String) : String :=
  String.ofList (Text.decapitalize name.toList)

/-! ## Derived names -/

/-- The singular of an English plural, by its ending only. -/
def singularChars (cs : List Char) : List Char :=
  match cs.reverse with
  | 's' :: 'e' :: 'i' :: c :: before => ('y' :: c :: before).reverse
  | 's' :: 's' :: _ => cs
  | 's' :: c :: before => (c :: before).reverse
  | _ => cs

/-- `messages` becomes `message` and `policies` becomes `policy`; `address`
stays. -/
def singularize (name : String) : String :=
  String.ofList (singularChars name.toList)

/-- The method for keyed access into a collection. -/
def keyAccessor (key : String) : String :=
  "by" ++ pascal key

/-- The method for access by an alternate key of a collection. -/
def alternateKeyAccessor (collection key : String) : String :=
  camel collection ++ "With" ++ pascal key

end Naming

end ApiSnippets
