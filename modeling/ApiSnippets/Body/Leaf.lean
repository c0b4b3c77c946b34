import ApiSnippets.Body.Node
import ApiSnippets.Naming
import ApiSnippets.Notice
import ApiSnippets.Schema.Index
/-!
# Values without parts

How a declared shape types a number or a text of a request, and how the type
of an array's elements is found. The formats of a shape decide before its
kind.
-/

namespace ApiSnippets

namespace Body

/-! ## Formats -/

/-- The formats of texts that are identifiers. -/
def guidFormats : List String := ["uuid", "guid"]

/-- The formats of texts that hold octets. -/
def binaryFormats : List String := ["base64url", "byte", "binary"]

/-- The temporal formats, by precedence. -/
def temporalFormats : List (String × Temporal) :=
  [("date-time", .dateTime), ("date", .date), ("time", .time), ("duration", .duration)]

/-- The temporal format of a shape. -/
def temporalOf? (s : Shape) : Option Temporal :=
  (temporalFormats.find? fun (name, _) => s.hasFormat [name]).map Prod.snd

/-! ## Numbers -/

/-- Whether an integer fits in 32 bits. -/
def fitsShort (n : Int) : Bool :=
  decide (-2147483648 ≤ n) && decide (n < 2147483648)

/-- The representation of a number by its looks. -/
def plainNumberType : Numeral → NumberType
  | .int n => ⟨!fitsShort n, false⟩
  | .num _ => ⟨true, true⟩

/-- The representation that a shape declares for a number. -/
def declaredNumberType? (s : Shape) (value : Numeral) : Option NumberType :=
  if s.hasFormat ["int64"] then
    some ⟨true, match value with
      | .int _ => false
      | .num _ => true⟩
  else if s.hasFormat ["double", "float64", "decimal"] then some ⟨true, true⟩
  else if s.hasFormat ["float", "float32"] then some ⟨false, true⟩
  else if s.kind = .number ∧ s.hasFormat ["int32", "int16", "int8", "uint8"] = false then
    some ⟨true, true⟩
  else none

/-- The representation of a number: the declared one, else by its looks. -/
def numberType (shape : Option Shape) (value : Numeral) : NumberType :=
  (shape.bind (declaredNumberType? · value)).getD (plainNumberType value)

/-! ## Elements of arrays -/

/-- The type of elements by their declared shape; none when the shape does
not say. -/
def declaredItemType? (s : Shape) : Option (Option ItemType) :=
  match s.kind with
  | .unknown => none
  | .object =>
    match s.typeName.filter (· ≠ "") with
    | some name => some (some (.object (TypeRef.ofName name)))
    | none => some (some .map)
  | .enum =>
    match s.typeName.filter (· ≠ "") with
    | some name => some (some (.enum (TypeRef.ofName name)))
    | none => some (some .string)
  | .string =>
    if s.hasFormat guidFormats then some (some .guid)
    else if (temporalOf? s).isSome then some (some .datetime)
    else if s.hasFormat binaryFormats then some (some .binary)
    else some (some .string)
  | .integer => some (some (.number (numberType (some s) (.int 0))))
  | .number => some (some (.number (numberType (some s) (.int 0))))
  | .boolean => some (some .boolean)
  | .array => some none

/-- The type of an element by what it is. -/
def itemTypeOf? : BodyNode → Option ItemType
  | .string _ => some .string
  | .number _ t => some (.number t)
  | .boolean _ => some .boolean
  | .object t _ _ => some (.object t)
  | .map _ => some .map
  | _ => none

/-- Whether a node is the null value. -/
def isNull : BodyNode → Bool
  | .null => true
  | _ => false

/-- The type of an array's elements: the declared one, else that of the first
element that is not null. -/
def itemType (shape : Option Shape) (elements : List BodyNode) : Option ItemType :=
  match shape.bind declaredItemType? with
  | some t => t
  | none => (elements.find? fun e => !isNull e).bind itemTypeOf?

/-! ## Enumerations -/

/-- A character between the members in the text of an enumeration. -/
def isMemberSeparator (c : Char) : Bool :=
  Text.isBlank c || c == ',' || c == '|'

/-- The members a text names, whatever its letter case. -/
def namedMembers (members : List String) (value : String) : List String :=
  (Text.fields isMemberSeparator value.toList).filterMap fun token =>
    members.reverse.find? fun m => Text.sameLetters m (String.ofList token)

/-- The members selected by a text: of flags all in the order of their
declaration, otherwise the first. -/
def selectedMembers (members : List String) (flags : Bool) (value : String) : List String :=
  let named := namedMembers members value
  if flags then members.filter named.contains else named.take 1

/-- The members and the flags of an enumeration's shape, from its type when it
lists no members. -/
def enumMembers (ix : Index) (s : Shape) : Except Fault (List String × Bool) :=
  match s.typeName.filter (· ≠ ""), s.members with
  | some name, [] => do
    match ← ix.describeType name none with
    | some t => pure (t.members, t.flags)
    | none => pure ([], s.flags)
  | _, members => .ok (members, s.flags)

/-- The node for a text of an enumeration. A text that names no member gets
the first one, with a notice; without members it stays as it is. -/
def enumNode (ix : Index) (s : Shape) (hint value : String) : Noted BodyNode := do
  let (members, flags) ← Noted.ofOutcome (enumMembers ix s)
  let name := s.typeName.filter (· ≠ "")
  let type := (name.map TypeRef.ofName).getD { name := Naming.pascal hint, synthesized := true }
  match selectedMembers members flags value, members with
  | [], [] => pure (.enum type [value] flags)
  | [], first :: _ => do
    Noted.note (.unknownMember value (name.getD hint) first)
    pure (.enum type [first] flags)
  | selected, _ => pure (.enum type selected flags)

/-! ## Texts -/

/-- The node for a text, typed by its shape. -/
def textNode (ix : Index) (shape : Option Shape) (hint value : String) : Noted BodyNode :=
  match shape with
  | none => pure (.string value)
  | some s =>
    if s.kind = .enum then enumNode ix s hint value
    else if s.hasFormat guidFormats then pure (.guid value)
    else
      match temporalOf? s with
      | some t => pure (.datetime value t)
      | none => pure (if s.hasFormat binaryFormats then .binary value else .string value)

end Body

end ApiSnippets
