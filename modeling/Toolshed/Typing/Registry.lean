import Toolshed.Syntax.Operator

namespace Toolshed

/-!
# Types

Types are rows of a registry and are known by their row. A row is entered once for
each shape: a map remembers the row of a shape that is there already. Object types
are equal only to themselves: each declaration makes a new one.
-/

structure TypeId where
  index : Nat
  deriving Repr, DecidableEq

namespace TypeId

/--
The type of what failed to check; it fits everywhere, so that one mistake is
reported once.
-/
def unknown : TypeId :=
  ⟨0⟩

def number : TypeId :=
  ⟨1⟩

def string : TypeId :=
  ⟨2⟩

def boolean : TypeId :=
  ⟨3⟩

def unit : TypeId :=
  ⟨4⟩

def fits (found expected : TypeId) : Bool :=
  found = expected || found = unknown || expected = unknown

end TypeId

structure ObjectId where
  index : Nat
  deriving Repr, DecidableEq

inductive Shape where
  | unknown
  | number
  | string
  | boolean
  | unit
  | function (parameters : List TypeId) (result : TypeId)
  | object (object : ObjectId)
  | typeName (denoted : TypeId)
  deriving Repr, DecidableEq

inductive ObjectKind where
  | classInstance
  | moduleInterface
  | host
  deriving Repr, DecidableEq

/--
A member of an object type; its type is missing until its initial value has been
checked.
-/
structure Member where
  name : String
  type : Option TypeId
  mutable : Bool
  deriving Repr, DecidableEq

structure ObjectType where
  name : String
  kind : ObjectKind
  members : List Member
  constructor : Option (List TypeId)
  deriving Repr, DecidableEq

namespace ObjectType

def member? (object : ObjectType) (name : String) : Option Member :=
  object.members.find? fun member => member.name = name

def setMemberType (object : ObjectType) (name : String) (type : TypeId) : ObjectType :=
  { object with
    members := object.members.map fun member =>
      if member.name = name then { member with type := some type } else member }

end ObjectType

/--
Rows of types, the objects that some of them stand for, and a map from shapes to
their rows. A change to the rows has to keep the map their inverse.
-/
structure Registry where
  cache : List (Shape × TypeId)
  shapes : Array Shape
  objects : Array ObjectType
  inverse :
    ∀ (shape : Shape) (type : TypeId),
      cache.lookup shape = some type ↔ shapes[type.index]? = some shape
  deriving Repr, DecidableEq

namespace Registry

def empty : Registry :=
  ⟨[], #[], #[], by simp⟩

def size (registry : Registry) : Nat :=
  registry.shapes.size

/-- A map that is the inverse of some rows stays so when both get a new row. -/
theorem inverse_push {registry : Registry} {shape : Shape}
    (isNew : registry.cache.lookup shape = none) (other : Shape) (type : TypeId) :
    ((shape, ⟨registry.size⟩) :: registry.cache).lookup other = some type ↔
      (registry.shapes.push shape)[type.index]? = some other := by
  obtain ⟨index⟩ := type
  have inverse := registry.inverse other ⟨index⟩
  by_cases same : other = shape
  · subst same
    have absent : registry.shapes[index]? ≠ some other := by simp [← inverse, isNew]
    by_cases last : index = registry.shapes.size
    · simp [size, last]
    · simp [size, Array.getElem?_push, last, absent, Ne.symm last]
  · by_cases last : index = registry.shapes.size
    · simpa [List.lookup_cons, beq_false_of_ne same, last, Ne.symm same] using inverse
    · simpa [List.lookup_cons, beq_false_of_ne same, Array.getElem?_push, last] using inverse

/-- The row of a shape, which is entered if the map does not have it. -/
def intern (registry : Registry) (shape : Shape) : TypeId × Registry :=
  match isNew : registry.cache.lookup shape with
  | some type => (type, registry)
  | none =>
    let type : TypeId := ⟨registry.size⟩
    (type,
      { registry with
        cache := (shape, type) :: registry.cache
        shapes := registry.shapes.push shape
        inverse := inverse_push isNew })

def initial : Registry :=
  [Shape.unknown, .number, .string, .boolean, .unit].foldl
    (fun registry shape => (registry.intern shape).2) .empty

def function (registry : Registry) (parameters : List TypeId) (result : TypeId) :
    TypeId × Registry :=
  registry.intern (.function parameters result)

def typeNameOf (registry : Registry) (denoted : TypeId) : TypeId × Registry :=
  registry.intern (.typeName denoted)

def declareObject (registry : Registry) (name : String) (kind : ObjectKind) : TypeId × Registry :=
  let declared : Registry :=
    { registry with objects := registry.objects.push ⟨name, kind, [], none⟩ }
  declared.intern (.object ⟨registry.objects.size⟩)

def shape? (registry : Registry) (type : TypeId) : Option Shape :=
  registry.shapes[type.index]?

def denoted? (registry : Registry) (type : TypeId) : Option TypeId :=
  match registry.shape? type with
  | some (.typeName denoted) => some denoted
  | _ => none

def objectId? (registry : Registry) (type : TypeId) : Option ObjectId :=
  match registry.shape? type with
  | some (.object id) => some id
  | _ => none

def object? (registry : Registry) (type : TypeId) : Option ObjectType := do
  let id ← registry.objectId? type
  registry.objects[id.index]?

/--
The registry with a change to an object type; nothing changes if the type is no
object type.
-/
def modifyObject (registry : Registry) (type : TypeId) (change : ObjectType → ObjectType) :
    Registry :=
  match registry.objectId? type with
  | some id => { registry with objects := registry.objects.modify id.index change }
  | none => registry

def member? (registry : Registry) (type : TypeId) (name : String) : Option Member := do
  let object ← registry.object? type
  object.member? name

def addMember (registry : Registry) (type : TypeId) (member : Member) : Bool × Registry :=
  match registry.object? type with
  | none => (false, registry)
  | some object =>
    if (object.member? member.name).isSome then
      (false, registry)
    else
      (true, registry.modifyObject type fun object =>
        { object with members := object.members ++ [member] })

def setMemberType (registry : Registry) (type : TypeId) (name : String) (memberType : TypeId) :
    Registry :=
  registry.modifyObject type fun object => object.setMemberType name memberType

def setConstructor (registry : Registry) (type : TypeId) (parameters : List TypeId) : Registry :=
  registry.modifyObject type fun object => { object with constructor := some parameters }

def describeUpTo (registry : Registry) : (fuel : Nat) → TypeId → Option String
  | 0, _ => none
  | fuel + 1, type => do
    match ← registry.shape? type with
    | .unknown => return "Unknown"
    | .number => return "Number"
    | .string => return "String"
    | .boolean => return "Boolean"
    | .unit => return "Unit"
    | .function parameters result =>
      let parameterTexts ← parameters.mapM (registry.describeUpTo fuel)
      let resultText ← registry.describeUpTo fuel result
      return "(" ++ ", ".intercalate parameterTexts ++ ") -> " ++ resultText
    | .object id =>
      match registry.objects[id.index]? with
      | some object => return object.name
      | none => return "object#" ++ toString id.index
    | .typeName denoted =>
      let text ← registry.describeUpTo fuel denoted
      return "Meta(" ++ text ++ ")"

/--
A type as users see it, if all its parts are in the registry. A type is made of
types that were there before it, so it has no more levels than there are types.
-/
def describe? (registry : Registry) (type : TypeId) : Option String :=
  registry.describeUpTo (registry.size + 1) type

def describe (registry : Registry) (type : TypeId) : String :=
  (registry.describe? type).getD "Unknown"

end Registry

end Toolshed
