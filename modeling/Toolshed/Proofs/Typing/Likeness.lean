import Mathlib.Data.List.Forall2
import Toolshed.Proofs.Typing.Frame
import Toolshed.Typing.Module

namespace Toolshed

/-!
# Checks that are alike

Two checks of the same tree are compared by the types that they come across:
whether these have the same parts, are known, or only whether there are faults.
All hold for one reason: a check looks at types only through the registry.
-/

def ScopeKind.returning : ScopeKind → Option TypeId × Bool
  | .function result => (some result, false)
  | .block => (none, true)
  | .global | .moduleBody | .classBody => (none, false)

class Paired (α : Type) where
  Alike : (TypeId → TypeId → Prop) → α → α → Prop
  mono :
    ∀ {types more : TypeId → TypeId → Prop} {left right : α},
      (∀ {type image}, types type image → more type image) →
      Alike types left right →
      Alike more left right

namespace Paired

variable {α β : Type}

abbrev same (α : Type) : Paired α :=
  ⟨fun _ left right => left = right, fun _ => id⟩

instance : Paired TypeId := ⟨fun types => types, fun more => more⟩
instance : Paired Bool := same Bool
instance : Paired Unit := same Unit
instance : Paired String := same String
instance : Paired NodeId := same NodeId

instance [Paired α] : Paired (Option α) :=
  ⟨fun types => Option.Rel (Alike types), fun more related => by
    cases related with
    | some related => exact .some (mono more related)
    | none => exact .none⟩

instance [Paired α] : Paired (List α) :=
  ⟨fun types => List.Forall₂ (Alike types), fun more => .imp fun _ _ => mono more⟩

instance [Paired α] [Paired β] : Paired (α × β) :=
  ⟨fun types left right => Alike types left.1 right.1 ∧ Alike types left.2 right.2,
    fun more => .imp (mono more) (mono more)⟩

instance : Paired Member :=
  ⟨fun types left right =>
    left.name = right.name ∧ Alike types left.type right.type ∧ left.mutable = right.mutable,
    fun more => .imp id (.imp (mono more) id)⟩

instance [Paired α] : Paired (Table α) :=
  ⟨fun types left right => Alike types left.entries right.entries, fun more => mono more⟩

instance : Paired Binding :=
  ⟨fun types left right =>
    Alike types left.type right.type ∧
      left.origin = right.origin ∧ left.declaration = right.declaration,
    fun more => .imp (mono more) id⟩

end Paired

/--
A way to compare the types of two registries. It is a relation that grows while
types are made and faults are noted, along worlds.
-/
class Likeness (World : Type) where
  Within : World → World → Prop
  same : World → TypeId → TypeId → Prop
  types : World → TypeId → TypeId → Prop
  own : World → TypeId → TypeId → Prop
  registries : World → Registry → Registry → Prop
  faulty : World → Prop
  strict : Prop

namespace Likeness

def Makes
    {World : Type}
    [Likeness World]
    (world : World)
    (related : World → TypeId → TypeId → Prop)
    (left right : TypeId × Registry) : Prop :=
  ∃ later,
    Within world later ∧
      (faulty later → faulty world) ∧
      registries later left.2 right.2 ∧ related later left.1 right.1

class Lawful (World : Type) [Likeness World] : Prop where
  refl : ∀ world : World, Within world world
  trans :
    ∀ {first second third : World},
      Within first second →
      Within second third →
      Within first third
  same_mono :
    ∀ {world later : World} {type image},
      Within world later →
      same world type image →
      same later type image
  types_mono :
    ∀ {world later : World} {type image},
      Within world later →
      types world type image →
      types later type image
  own_mono :
    ∀ {world later : World} {type image},
      Within world later →
      own world type image →
      own later type image
  same_of_types : ∀ {world : World} {type image}, types world type image → same world type image
  types_of_own : ∀ {world : World} {type image}, own world type image → types world type image
  same_iff :
    ∀ {world : World} {type image other otherImage},
      same world type image →
      same world other otherImage →
      (type = other ↔ image = otherImage)
  basic :
    ∀ world : World, ∀ type ∈ [TypeId.number, .string, .boolean, .unit], types world type type
  unknown :
    ∀ world : World,
      same world .unknown .unknown ∧ (¬strict World → types world .unknown .unknown)
  describe :
    ∀ {world : World} {left right type image},
      registries world left right →
      same world type image →
      left.describe type = right.describe image
  denoted? :
    ∀ {world : World} {left right type image},
      registries world left right →
      types world type image →
      Paired.Alike (types world) (left.denoted? type) (right.denoted? image)
  callable? :
    ∀ {world : World} {left right type image},
      registries world left right →
      types world type image →
      Option.Rel
        (fun found made =>
          Paired.Alike (same world) found.1 made.1 ∧ types world found.2 made.2)
        (Check.callable? left type) (Check.callable? right image)
  members :
    ∀ {world : World} {left right type image},
      registries world left right →
      types world type image →
      Paired.Alike (types world) ((left.object? type).map ObjectType.members)
        ((right.object? image).map ObjectType.members)
  function :
    ∀ {world : World} {left right parameters images type image},
      registries world left right →
      Paired.Alike (types world) parameters images →
      types world type image →
      Makes world types (left.function parameters type) (right.function images image)
  typeNameOf :
    ∀ {world : World} {left right type image},
      registries world left right →
      types world type image →
      Makes world types (left.typeNameOf type) (right.typeNameOf image)
  declareObject :
    ∀ {world : World} {left right} name kind,
      registries world left right →
      Makes world own (left.declareObject name kind) (right.declareObject name kind)
  addMember :
    ∀ {world : World} {left right type image} {member made : Member},
      registries world left right →
      own world type image →
      Paired.Alike (types world) member made →
      (left.addMember type member).1 = (right.addMember image made).1 ∧
        registries world (left.addMember type member).2 (right.addMember image made).2
  setMemberType :
    ∀ {world : World} {left right type image found madeFound} name,
      registries world left right →
      own world type image →
      types world found madeFound →
      registries world (left.setMemberType type name found)
        (right.setMemberType image name madeFound)
  setConstructor :
    ∀ {world : World} {left right type image found madeFound},
      registries world left right →
      own world type image →
      Paired.Alike (types world) found madeFound →
      registries world (left.setConstructor type found) (right.setConstructor image madeFound)
  fail :
    ∀ {world : World} {left right},
      registries world left right →
      ∃ later,
        Within world later ∧ registries later left right ∧ types later .unknown .unknown

variable {World : Type} [Likeness World] {world later : World} {α : Type} [Paired α]
variable {type image other otherImage : TypeId}

abbrev Alike (world : World) (left right : α) : Prop :=
  Paired.Alike (types world) left right

variable [Lawful World]

open Lawful

theorem Within.keep (within : Within world later) {left right : α}
    (alike : Alike world left right) : Alike later left right :=
  Paired.mono (Lawful.types_mono within) alike

theorem number : Alike world TypeId.number TypeId.number :=
  basic world _ (by simp)

theorem string : Alike world TypeId.string TypeId.string :=
  basic world _ (by simp)

theorem boolean : Alike world TypeId.boolean TypeId.boolean :=
  basic world _ (by simp)

theorem unit : Alike world TypeId.unit TypeId.unit :=
  basic world _ (by simp)

theorem eq_iff (first : Alike world type image) (second : Alike world other otherImage) :
    type = other ↔ image = otherImage :=
  same_iff (same_of_types first) (same_of_types second)

theorem eq_unknown_iff (alike : Alike world type image) : type = .unknown ↔ image = .unknown :=
  same_iff (same_of_types alike) (unknown world).1

theorem fits_eq (found : same world type image) (expected : same world other otherImage) :
    type.fits other = image.fits otherImage := by
  simp only [TypeId.fits, same_iff found (unknown world).1, same_iff expected (unknown world).1,
    same_iff found expected]

end Likeness

open Likeness (Within Alike)

variable {World : Type} [Likeness World] {world later : World} {type image : TypeId}

namespace Paired

variable {κ α β : Type} [BEq κ] [Paired α] [Paired β] {types : TypeId → TypeId → Prop}

theorem lookup {entries images : List (κ × α)}
    (alike :
      List.Forall₂ (fun entry image => entry.1 = image.1 ∧ Paired.Alike types entry.2 image.2)
        entries images)
    (key : κ) : Paired.Alike types (entries.lookup key) (images.lookup key) := by
  induction alike with
  | nil => exact .none
  | cons first _ ih =>
    rw [List.lookup_cons, List.lookup_cons, first.1]
    split
    · exact .some first.2
    · exact ih

theorem map {values images : List α} {change madeChange : α → β}
    (alike : Paired.Alike types values images)
    (changes :
      ∀ {value image},
        Paired.Alike types value image →
        Paired.Alike types (change value) (madeChange image)) :
    Paired.Alike types (values.map change) (images.map madeChange) :=
  List.forall₂_map_left_iff.mpr (List.forall₂_map_right_iff.mpr (alike.imp fun _ _ => changes))

theorem append {values images others otherImages : List α}
    (alike : Paired.Alike types values images)
    (otherAlike : Paired.Alike types others otherImages) :
    Paired.Alike types (values ++ others) (images ++ otherImages) :=
  List.rel_append alike otherAlike

theorem isSome_eq {value image : Option α} (alike : Paired.Alike types value image) :
    value.isSome = image.isSome := by
  cases alike <;> rfl

theorem getD {value image : Option α} {otherwise otherImage : α}
    (alike : Paired.Alike types value image) (others : Paired.Alike types otherwise otherImage) :
    Paired.Alike types (value.getD otherwise) (image.getD otherImage) := by
  cases alike with
  | some alike => exact alike
  | none => exact others

theorem member? {members images : List Member} (alike : Paired.Alike types members images)
    (name : String) :
    Paired.Alike types (members.find? fun member => member.name = name)
      (images.find? fun member => member.name = name) := by
  induction alike with
  | nil => exact .none
  | cons first _ ih =>
    rw [List.find?_cons, List.find?_cons, first.1]
    split
    · exact .some first
    · exact ih

end Paired

def Scope.Alike (world : World) (scope made : Scope) : Prop :=
  Paired.Alike (Likeness.same world) scope.kind.returning made.kind.returning ∧
    Likeness.Alike world scope.bindings made.bindings

def Context.Alike (world : World) (context made : Context) : Prop :=
  context.innermost.Alike world made.innermost ∧
    List.Forall₂ (Scope.Alike world) context.outer made.outer

namespace Scope

variable {scope made : Scope} {scopes images : List Scope}

section

variable (alike : scope.Alike world made)
include alike

theorem Alike.keep [Likeness.Lawful World]
    (within : Within world later) : scope.Alike later made :=
  alike.imp (Paired.mono (Likeness.Lawful.same_mono within)) within.keep

theorem alike_get? (name : String) :
    Likeness.Alike world (scope.get? name) (made.get? name) :=
  Paired.lookup alike.2 name

theorem has_eq (name : String) :
    scope.has name = made.has name :=
  Paired.isSome_eq (alike_get? alike name)

theorem alike_setType (name : String)
    (types : Likeness.Alike world type image) :
    (scope.setType name type).Alike world (made.setType name image) := by
  refine ⟨alike.1, Paired.map alike.2 fun {entry madeEntry} same => ⟨same.1, ?_⟩⟩
  have names : entry.1 = madeEntry.1 := same.1
  simp only [names]
  split
  · exact ⟨.some types, same.2.2⟩
  · exact same.2

end

theorem alike_setTypeIn (alike : List.Forall₂ (Alike world) scopes images) (name : String)
    (types : Likeness.Alike world type image) :
    List.Forall₂ (Alike world) (setTypeIn name type scopes) (setTypeIn name image images) := by
  induction alike with
  | nil => exact .nil
  | cons first rest ih =>
    rw [setTypeIn, setTypeIn, has_eq first]
    split
    · exact .cons (alike_setType first name types) rest
    · exact .cons first ih

theorem returnTypeIn_cons (scope : Scope) (rest : List Scope) :
    returnTypeIn (scope :: rest) =
      scope.kind.returning.1.or (if scope.kind.returning.2 then returnTypeIn rest else none) := by
  rw [returnTypeIn]
  cases scope.kind <;> rfl

theorem alike_returnTypeIn (alike : List.Forall₂ (Alike world) scopes images) :
    Paired.Alike (Likeness.same world) (returnTypeIn scopes) (returnTypeIn images) := by
  induction alike with
  | nil => exact .none
  | @cons scope made _ _ first _ ih =>
    obtain ⟨results, blocks⟩ := first.1
    rw [returnTypeIn_cons, returnTypeIn_cons]
    generalize scope.kind.returning = kind, made.kind.returning = madeKind at results blocks
    obtain ⟨result, isBlock⟩ := kind
    obtain ⟨madeResult, _⟩ := madeKind
    obtain rfl : isBlock = _ := blocks
    cases results with
    | some same => exact .some same
    | none =>
      cases isBlock with
      | false => exact .none
      | true => exact ih

end Scope

namespace Context

variable {context made : Context} {binding madeBinding : Binding}

variable (alike : context.Alike world made)
include alike

theorem Alike.keep [Likeness.Lawful World]
    (within : Within world later) : context.Alike later made :=
  alike.imp (·.keep within) (.imp fun _ _ same => same.keep within)

theorem Alike.scopes :
    List.Forall₂ (Scope.Alike world) context.scopes made.scopes :=
  .cons alike.1 alike.2

theorem alike_lookup (name : String) :
    Likeness.Alike world (context.lookup name) (made.lookup name) := by
  have scopes := alike.scopes
  unfold lookup
  generalize context.scopes = found, made.scopes = madeFound at scopes
  induction scopes with
  | nil => exact .none
  | @cons scope made _ _ first _ ih =>
    have bindings := Scope.alike_get? first name
    rw [List.findSome?_cons, List.findSome?_cons]
    generalize scope.get? name = binding, made.get? name = madeBinding at bindings
    cases bindings with
    | some same => exact .some same
    | none => exact ih

theorem alike_define (name : String)
    (bindings : Likeness.Alike world binding madeBinding) :
    (context.define name binding).1 = (made.define name madeBinding).1 ∧
      (context.define name binding).2.Alike world (made.define name madeBinding).2 := by
  unfold define definedLocally
  rw [Scope.has_eq alike.1]
  split
  · exact ⟨rfl, alike⟩
  · exact ⟨rfl, ⟨alike.1.1, Paired.append alike.1.2 (.cons ⟨rfl, bindings⟩ .nil)⟩, alike.2⟩

theorem alike_setType (name : String)
    (types : Likeness.Alike world type image) :
    (context.setType name type).Alike world (made.setType name image) := by
  unfold setType
  rw [Scope.has_eq alike.1]
  split
  · exact ⟨Scope.alike_setType alike.1 name types, alike.2⟩
  · exact ⟨alike.1, Scope.alike_setTypeIn alike.2 name types⟩

theorem alike_pop : context.pop.Alike world made.pop := by
  have outer := alike.2
  unfold pop
  generalize context.outer = scopes, made.outer = images at outer
  cases outer with
  | nil => exact alike
  | cons first rest => exact ⟨first, rest⟩

end Context

structure CheckState.Alike (world : World) (left right : CheckState) : Prop where
  registry : Likeness.registries world left.registry right.registry
  context : left.context.Alike world right.context
  diagnostics : left.diagnostics = right.diagnostics
  faulty : Likeness.faulty world → left.diagnostics ≠ []
  types : Likeness.Alike world left.types right.types
  resolutions : left.resolutions = right.resolutions
  classes : Paired.Alike (Likeness.own world) left.classes right.classes
  declared : left.declared = right.declared
  denotations : Likeness.Alike world left.denotations right.denotations
  units : left.units = right.units
  uses : left.uses = right.uses

theorem CheckState.Alike.withRegistry [Likeness.Lawful World] {state made : CheckState}
    {registry madeRegistry : Registry} (alike : state.Alike world made)
    (within : Within world later) (faulty : Likeness.faulty later → state.diagnostics ≠ [])
    (registries : Likeness.registries later registry madeRegistry) :
    CheckState.Alike later { state with registry := registry }
      { made with registry := madeRegistry } :=
  { alike with
    registry := registries
    context := alike.context.keep within
    faulty := faulty
    types := within.keep alike.types
    classes := Paired.mono (Likeness.Lawful.own_mono within) alike.classes
    denotations := within.keep alike.denotations }

theorem CheckState.Alike.report {state made : CheckState} (alike : state.Alike world made)
    (diagnostic : Diagnostic) :
    CheckState.Alike world { state with diagnostics := state.diagnostics ++ [diagnostic] }
      { made with diagnostics := made.diagnostics ++ [diagnostic] } :=
  { alike with
    diagnostics := by rw [alike.diagnostics]
    faulty := by simp }

end Toolshed
