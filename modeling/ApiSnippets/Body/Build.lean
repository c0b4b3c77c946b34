import ApiSnippets.Body.Leaf
import ApiSnippets.Request.Annotations
/-!
# Typing JSON values

The walk over a JSON value alongside its declared shape. An object is typed by
its declared type, or by the type it names for itself when the index knows it;
then every member goes to one of two places. Members of the type and
references stay with the object; everything else is kept in a map of
additional data, which is the object's last member.
-/

namespace ApiSnippets

namespace Body

/-! ## Objects -/

/-- What the members of an object are typed with. -/
structure Frame where
  type : TypeRef
  derived : Bool
  /-- Whether members without a declaration are additional data. -/
  known : Bool
  properties : List (String × Shape)

/-- The namespace in which a frame looks for types. -/
def Frame.near (f : Frame) : Option String :=
  some f.type.namespaceName

/-- The property for a member, by its exact name first, then in any letter
case. -/
def Frame.property? (f : Frame) (name : String) : Option (String × Shape) :=
  (f.properties.find? fun p => p.1 == name).or
    (f.properties.find? fun p => Text.sameLetters p.1 name)

/-- The reference to the type that a name stands for. -/
def typeRefOf (ix : Index) (name : String) : Outcome TypeRef := do
  let t ← ix.describeType name none
  pure (TypeRef.ofName ((t.map (·.name)).getD name))

/-- The properties of a type. -/
def propertiesOf (ix : Index) (t : TypeRef) : Outcome (List (String × Shape)) := do
  let t ← ix.describeType t.name none
  pure ((t.map (·.properties)).getD [])

/-- The type that a name stands for, when objects can have it. -/
def objectType? (ix : Index) (name : String) (near : Option String) :
    Outcome (Option TypeDescriptor) := do
  let t ← ix.describeType name near
  pure (t.filter (·.kind != .enum))

/-- The frame of an object that may name another type for itself. A type that
the index does not know is passed over with a notice. -/
def Frame.refine (ix : Index) (f : Frame) (members : List (String × Json)) : Noted Frame :=
  match ((Annotated.ofMembers members).typeOverride).filter (· ≠ "") with
  | none => pure f
  | some name => do
    match ← Noted.ofOutcome (objectType? ix name f.near) with
    | some t =>
      pure ⟨TypeRef.ofName t.name, t.name != f.type.name, true, t.properties⟩
    | none => do
      Noted.note (.unknownDerivedType name f.type.name)
      pure f

/-- The frame of an object of a named type. -/
def namedFrame (ix : Index) (type : TypeRef) (members : List (String × Json)) : Noted Frame := do
  let properties ← Noted.ofOutcome (propertiesOf ix type)
  Frame.refine ix ⟨type, false, true, properties⟩ members

/-- A member of an object, and whether it is additional data. -/
structure Placed where
  name : String
  node : BodyNode
  additional : Bool := false

/-- The name of the map of additional data. -/
def additionalData : String := "additionalData"

/-- The members that belong to one of the two places. -/
def Placed.pick (additional : Bool) (placed : List Placed) : List (String × BodyNode) :=
  (placed.filter fun p => p.additional == additional).map fun p => (p.name, p.node)

/-- **The members of an object**: those that stay with it in their order, then
the map of the others, when there are any. -/
def arrange (placed : List Placed) : List (String × BodyNode) :=
  let extra := Placed.pick true placed
  Placed.pick false placed ++ (if extra.isEmpty then [] else [(additionalData, .map extra)])

/-- The object of a frame. -/
def Frame.node (f : Frame) (placed : List Placed) : BodyNode :=
  .object f.type (arrange placed) f.derived

/-! ## Shapes and values that disagree -/

/-- The type name of a value for messages. -/
def typeNameOf : Json → String
  | .bool _ => "bool"
  | .int _ => "int"
  | .num _ => "float"
  | .arr _ => "list"
  | .obj _ => "dict"
  | .null => "NoneType"
  | .str _ => "str"

/-- Whether a shape is that of a collection. -/
def isCollection (shape : Option Shape) : Bool :=
  shape.any fun s => s.kind == .array

/-- The type of a value's items. -/
def itemShape (shape : Option Shape) : Option Shape :=
  shape.bind fun s => if s.kind = .array then s.items else none

/-- The fault of a value without parts that should have parts. -/
def leafFault (shape : Option Shape) (hint : String) (v : Json) : Option ShapeFault :=
  match shape.bind Shape.objectName? with
  | some name => some (.valueForObject hint name (typeNameOf v))
  | none => if isCollection shape then some (.valueForCollection hint (typeNameOf v)) else none

/-- How an object is to be read. -/
inductive ObjectPlan where
  | fault (cause : ShapeFault)
  | frame (f : Frame)
  | untyped

/-- How an object is to be read where a shape is declared. -/
def planObject (ix : Index) (shape : Option Shape) (hint : String)
    (members : List (String × Json)) : Noted ObjectPlan :=
  if isCollection shape then pure (.fault (.objectForCollection hint))
  else
    match shape with
    | none => pure .untyped
    | some s =>
      match s.objectName? with
      | some name => do
        let type ← Noted.ofOutcome (typeRefOf ix name)
        .frame <$> namedFrame ix type members
      | none =>
        if s.properties.isEmpty then pure .untyped
        else do
          let name := Naming.pascal ((s.title.filter (· ≠ "")).getD hint)
          .frame <$> Frame.refine ix ⟨{ name := name, synthesized := true }, false, true, s.properties⟩ members

/-- How an object is to be read where nothing is declared: typed when it names
a known type for itself. -/
def planUntyped (ix : Index) (near : Option String) (members : List (String × Json)) :
    Noted ObjectPlan :=
  match members.lookup Annotated.typeMember with
  | some (.str name) => do
    match ← Noted.ofOutcome (objectType? ix (String.ofList (name.toList.dropWhile (· == '#'))) near) with
    | some t => .frame <$> namedFrame ix (TypeRef.ofName t.name) members
    | none => pure .untyped
  | _ => pure .untyped

/-! ## The walk -/

mutual

/-- A value where nothing is declared. -/
def untyped (ix : Index) (near : Option String) : Json → Noted BodyNode
  | .null => pure .null
  | .obj members => do
    match ← planUntyped ix near members with
    | .frame f => f.node <$> placeAll ix f members
    | _ => .map <$> untypedMembers ix near members
  | .arr items => do
    let elements ← untypedAll ix near items
    pure (.array (itemType none elements) elements)
  | .bool b => pure (.boolean b)
  | .int n => pure (.number (.int n) (numberType none (.int n)))
  | .num x => pure (.number (.num x) (numberType none (.num x)))
  | .str s => pure (.string s)

/-- Values where nothing is declared. -/
def untypedAll (ix : Index) (near : Option String) : List Json → Noted (List BodyNode)
  | [] => pure []
  | v :: vs => do
    let n ← untyped ix near v
    let ns ← untypedAll ix near vs
    pure (n :: ns)

/-- Members where nothing is declared. -/
def untypedMembers (ix : Index) (near : Option String) :
    List (String × Json) → Noted (List (String × BodyNode))
  | [] => pure []
  | (name, v) :: ms => do
    let n ← untyped ix near v
    let ns ← untypedMembers ix near ms
    pure ((name, n) :: ns)

/-- A value where a shape may be declared. -/
def value (ix : Index) (shape : Option Shape) (near : Option String) (hint : String) :
    Json → Noted BodyNode
  | .null => pure .null
  | .obj members => do
    match ← planObject ix shape hint members with
    | .fault cause => Noted.ofOutcome (.error (.shape cause))
    | .frame f => f.node <$> placeAll ix f members
    | .untyped => do
      match ← planUntyped ix near members with
      | .frame f => f.node <$> placeAll ix f members
      | _ => .map <$> untypedMembers ix near members
  | .arr items =>
    match shape.bind Shape.objectName? with
    | some name => Noted.ofOutcome (.error (.shape (.collectionForObject hint name)))
    | none => do
      let elements ← valueAll ix (itemShape shape) near (Naming.singularize hint) items
      pure (.array (itemType (itemShape shape) elements) elements)
  | .bool b =>
    match leafFault shape hint (.bool b) with
    | some cause => Noted.ofOutcome (.error (.shape cause))
    | none => pure (.boolean b)
  | .int n =>
    match leafFault shape hint (.int n) with
    | some cause => Noted.ofOutcome (.error (.shape cause))
    | none => pure (.number (.int n) (numberType shape (.int n)))
  | .num x =>
    match leafFault shape hint (.num x) with
    | some cause => Noted.ofOutcome (.error (.shape cause))
    | none => pure (.number (.num x) (numberType shape (.num x)))
  | .str s =>
    match leafFault shape hint (.str s) with
    | some cause => Noted.ofOutcome (.error (.shape cause))
    | none => textNode ix shape hint s

/-- The elements of an array. -/
def valueAll (ix : Index) (shape : Option Shape) (near : Option String) (hint : String) :
    List Json → Noted (List BodyNode)
  | [] => pure []
  | v :: vs => do
    let n ← value ix shape near hint v
    let ns ← valueAll ix shape near hint vs
    pure (n :: ns)

/-- The members of an object, each with its place. The member that names the
object's type is left out. -/
def placeAll (ix : Index) (f : Frame) : List (String × Json) → Noted (List Placed)
  | [] => pure []
  | (name, v) :: ms =>
    if name = Annotated.typeMember then placeAll ix f ms
    else do
      let placed ←
        match Annotated.roleOf name with
        | .id => pure (⟨name, .string v.asText, false⟩ : Placed)
        | .bind => do
          let n ← untyped ix f.near v
          pure ⟨name, n, true⟩
        | .member =>
          match f.property? name with
          | some (declared, shape) => do
            let n ← value ix (some shape) f.near declared v
            pure ⟨declared, n, false⟩
          | none => do
            let n ← untyped ix f.near v
            pure ⟨name, n, f.known⟩
      let rest ← placeAll ix f ms
      pure (placed :: rest)

end

end Body

end ApiSnippets
