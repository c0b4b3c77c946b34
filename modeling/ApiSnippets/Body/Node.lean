import ApiSnippets.Text.Cut
import ApiSnippets.Text.Utf8
/-!
# Body graphs

The body of a request as a tree of typed values: what a snippet has to build,
without a word about the language that builds it. Objects and maps keep their
members in the order of the request, and empty containers are kept.
-/

namespace ApiSnippets

/-- A reference to a model type. The name of a type of the schema is fully
qualified; a synthesized one is a bare class name. A synthesized body that a
sibling action declares names that action. -/
structure TypeRef where
  name : String
  namespaceName : String := ""
  synthesized : Bool := false
  action : Option String := none
  deriving DecidableEq, Repr, Inhabited

namespace TypeRef

/-- The last component of the name. -/
def shortName (t : TypeRef) : String :=
  Text.lastComponent t.name

/-- The reference to a type of the schema. -/
def ofName (name : String) : TypeRef :=
  { name := name, namespaceName := Text.leadingComponents name }

end TypeRef

/-- A number of the request. -/
inductive Numeral where
  | int (n : Int)
  | num (x : Float)

/-- How a number is represented: in 64 bits or in 32, with a fraction or
without. -/
structure NumberType where
  wide : Bool := false
  fractional : Bool := false
  deriving DecidableEq, Repr, Inhabited

/-- What a temporal value stands for. -/
inductive Temporal where
  | dateTime
  | date
  | time
  | duration
  /-- A format that is none of the four. -/
  | other
  deriving DecidableEq, Repr, Inhabited

/-- The type of the elements of an array. -/
inductive ItemType where
  | string
  | number (type : NumberType)
  | boolean
  | guid
  | datetime
  | binary
  | enum (type : TypeRef)
  | object (type : TypeRef)
  | map
  deriving DecidableEq, Repr, Inhabited

/-- The type that the elements of an array refer to. -/
def ItemType.typeRef? : ItemType → Option TypeRef
  | enum t => some t
  | object t => some t
  | _ => none

/-- A typed value. -/
inductive BodyNode where
  | string (value : String)
  | number (value : Numeral) (type : NumberType)
  | boolean (value : Bool)
  | guid (value : String)
  | datetime (value : String) (temporal : Temporal)
  /-- Binary content in base64. -/
  | binary (base64 : String)
  /-- A body that is no JSON value. -/
  | stream (octets : Bytes)
  /-- Members of an enumeration, more than one for flags only. -/
  | enum (type : TypeRef) (members : List String) (flags : Bool)
  | null
  /-- A model object; `derived` when the request itself names its type. -/
  | object (type : TypeRef) (members : List (String × BodyNode)) (derived : Bool)
  | array (item : Option ItemType) (elements : List BodyNode)
  /-- Data without a model, under text keys. -/
  | map (members : List (String × BodyNode))
  deriving Inhabited

/-- The body of a request and the name of its class. -/
structure BodyGraph where
  root : BodyNode
  typeName : Option String := none

namespace BodyNode

/-- Whether a node has children. -/
def isContainer : BodyNode → Bool
  | object _ _ _ => true
  | array _ _ => true
  | map _ => true
  | _ => false

mutual

/-- A node and everything below it, depth first. -/
def walk : BodyNode → List BodyNode
  | object t ms d => object t ms d :: walkMembers ms
  | array t es => array t es :: walkAll es
  | map ms => map ms :: walkMembers ms
  | n => [n]

/-- Nodes and everything below them. -/
def walkAll : List BodyNode → List BodyNode
  | [] => []
  | n :: ns => walk n ++ walkAll ns

/-- The nodes of members and everything below them. -/
def walkMembers : List (String × BodyNode) → List BodyNode
  | [] => []
  | (_, n) :: ms => walk n ++ walkMembers ms

end

theorem walk_of_not_isContainer {n : BodyNode} (h : n.isContainer = false) : n.walk = [n] := by
  cases n <;> simp_all [isContainer, walk]

theorem mem_walkAll {m : BodyNode} :
    ∀ {ns : List BodyNode}, m ∈ walkAll ns ↔ ∃ n ∈ ns, m ∈ n.walk
  | [] => by simp [walkAll]
  | n :: ns => by
    rw [walkAll, List.mem_append, mem_walkAll]
    simp

theorem mem_walkMembers {m : BodyNode} :
    ∀ {ms : List (String × BodyNode)}, m ∈ walkMembers ms ↔ ∃ e ∈ ms, m ∈ e.2.walk
  | [] => by simp [walkMembers]
  | (name, n) :: ms => by
    rw [walkMembers, List.mem_append, mem_walkMembers]
    simp

/-- The name of a node's kind. -/
def kindName : BodyNode → String
  | string _ => "string"
  | number _ _ => "number"
  | boolean _ => "boolean"
  | guid _ => "guid"
  | datetime _ _ => "datetime"
  | binary _ => "binary"
  | stream _ => "binary"
  | enum _ _ _ => "enum"
  | null => "null"
  | object _ _ _ => "object"
  | array _ _ => "array"
  | map _ => "map"

end BodyNode

end ApiSnippets
