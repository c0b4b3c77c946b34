import ApiSnippets.Json
import ApiSnippets.Text.Cut
/-!
# Annotations

Control members that ride along inside JSON objects. `@odata.type` names the
type of its object and is lifted out; `@odata.id` and the members whose name
ends in `@odata.bind` are references; everything else is data.
-/

namespace ApiSnippets

/-- What a member of an object is. -/
inductive MemberRole where
  | member
  | id
  | bind
  deriving DecidableEq, Repr

/-- A member with its role. -/
structure Member where
  name : String
  value : Json
  role : MemberRole

/-- The members of an object and the type it names for itself, without the
hash sign. -/
structure Annotated where
  typeOverride : Option String
  members : List Member

namespace Annotated

/-- The member that names the object's type. -/
def typeMember : String := "@odata.type"

/-- The member that holds a reference. -/
def idMember : String := "@odata.id"

/-- The ending of members that bind a reference. -/
def bindEnding : String := "@odata.bind"

/-- The role of a member with a name. -/
def roleOf (name : String) : MemberRole :=
  if name = idMember then .id
  else if Text.hasEnd bindEnding name then .bind
  else .member

/-- The type a value names: none for a text of hash signs and spaces alone
and for what is no text. -/
def overrideOf : Json → Option String
  | .str s =>
    if s.toList.all fun c => c == '#' || c == ' ' then none
    else some (String.ofList ((Text.strip s.toList).dropWhile (· == '#')))
  | _ => none

/-- An object's members sorted by role, in their order. -/
def ofMembers (members : List (String × Json)) : Annotated :=
  ⟨(members.lookup typeMember).bind overrideOf,
    (members.filter fun (name, _) => name != typeMember).map fun (name, v) => ⟨name, v, roleOf name⟩⟩

end Annotated

end ApiSnippets
