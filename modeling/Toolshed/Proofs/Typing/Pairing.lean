import Toolshed.Proofs.Typing.Likeness

namespace Toolshed

/-!
# Registries that differ in their rows

The types of a module have other rows if other modules were checked before it. A
pairing says which types of two registries are the same.
-/

/--
Which types and object types of two registries are the same. The types that are
always there are the same, and two types are different in one registry if they
are in the other.
-/
structure Pairing where
  types : TypeId → TypeId → Prop
  objects : ObjectId → ObjectId → Prop
  basic : ∀ type ∈ [TypeId.unknown, .number, .string, .boolean, .unit], types type type
  types_iff :
    ∀ {type image other otherImage},
      types type image →
      types other otherImage →
      (type = other ↔ image = otherImage)
  objects_iff :
    ∀ {id image other otherImage},
      objects id image →
      objects other otherImage →
      (id = other ↔ image = otherImage)

structure Pairing.Within (pairing wider : Pairing) : Prop where
  types : ∀ {type image}, pairing.types type image → wider.types type image
  objects : ∀ {id image}, pairing.objects id image → wider.objects id image

theorem Pairing.Within.refl (pairing : Pairing) : pairing.Within pairing :=
  ⟨id, id⟩

theorem Pairing.Within.trans {pairing wider widest : Pairing} (first : pairing.Within wider)
    (second : wider.Within widest) : pairing.Within widest :=
  ⟨fun paired => second.types (first.types paired),
    fun paired => second.objects (first.objects paired)⟩

instance : Paired ObjectType :=
  ⟨fun types left right =>
    left.name = right.name ∧ left.kind = right.kind ∧
      Paired.Alike types left.members right.members ∧
      Paired.Alike types left.constructor right.constructor,
    fun more => .imp id (.imp id (.imp (Paired.mono more) (Paired.mono more)))⟩

variable {pairing wider : Pairing} {type image other otherImage : TypeId}

inductive Shape.Alike (pairing : Pairing) : Shape → Shape → Prop where
  | unknown : Shape.Alike pairing .unknown .unknown
  | number : Shape.Alike pairing .number .number
  | string : Shape.Alike pairing .string .string
  | boolean : Shape.Alike pairing .boolean .boolean
  | unit : Shape.Alike pairing .unit .unit
  | function {parameters images : List TypeId} {result image : TypeId} :
      Paired.Alike pairing.types parameters images →
      pairing.types result image →
      Shape.Alike pairing (.function parameters result) (.function images image)
  | object {id image : ObjectId} :
      pairing.objects id image →
      Shape.Alike pairing (.object id) (.object image)
  | typeName {denoted image : TypeId} :
      pairing.types denoted image →
      Shape.Alike pairing (.typeName denoted) (.typeName image)

def Shape.parts : Shape → List TypeId
  | .function parameters result => result :: parameters
  | .typeName denoted => [denoted]
  | _ => []

namespace Registry

variable {registry larger left right : Registry} {shape made : Shape}

def Ordered (shapes : Array Shape) : Prop :=
  ∀ (type : TypeId) (shape : Shape),
    shapes[type.index]? = some shape → ∀ part ∈ shape.parts, part.index < type.index

structure Alike (pairing : Pairing) (left right : Registry) : Prop where
  rows :
    ∀ {type image},
      pairing.types type image →
      ∃ shape made,
        left.shape? type = some shape ∧ right.shape? image = some made ∧ shape.Alike pairing made
  objects :
    ∀ {id image : ObjectId},
      pairing.objects id image →
      ∃ object made,
        left.objects[id.index]? = some object ∧
          right.objects[image.index]? = some made ∧ Paired.Alike pairing.types object made
  ordered : Ordered left.shapes ∧ Ordered right.shapes

theorem ordered_of_forall {shapes : Array Shape}
    (earlier :
      ∀ entry ∈ shapes.toList.zipIdx, ∀ part ∈ entry.1.parts, part.index < entry.2) :
    Ordered shapes := by
  intro type shape found
  rw [← Array.getElem?_toList] at found
  exact earlier (shape, type.index) (List.mem_zipIdx_iff_getElem?.mpr found)

theorem Ordered.intern (ordered : Ordered registry.shapes)
    (inside : ∀ part ∈ shape.parts, part.index < registry.size) :
    Ordered (registry.intern shape).2.shapes := by
  unfold Registry.intern
  split
  · exact ordered
  · intro type made found part isPart
    simp only [Array.getElem?_push] at found
    split at found
    · next same =>
        obtain rfl := Option.some.inj found
        exact same ▸ inside part isPart
    · exact ordered type made found part isPart

end Registry

theorem forall₂_eq_iff {α β : Type} {relation : α → β → Prop} {values others : List α}
    {images otherImages : List β}
    (iff :
      ∀ value ∈ values,
        ∀ {image other otherImage},
          relation value image →
          relation other otherImage →
          (value = other ↔ image = otherImage))
    (all : List.Forall₂ relation values images)
    (otherAll : List.Forall₂ relation others otherImages) :
    values = others ↔ images = otherImages := by
  induction all generalizing others otherImages with
  | nil => cases otherAll <;> simp
  | cons first _ ih =>
    cases otherAll with
    | nil => simp
    | cons otherFirst otherRest =>
      rw [List.forall_mem_cons] at iff
      rw [List.cons.injEq, List.cons.injEq, iff.1 first otherFirst, ih iff.2 otherRest]

theorem Paired.forall_mem {types images : List TypeId} {bound imageBound : Nat}
    (inside :
      ∀ {type image},
        pairing.types type image →
        type.index < bound ∧ image.index < imageBound)
    (alike : Paired.Alike pairing.types types images) :
    (∀ type ∈ types, type.index < bound) ∧ ∀ image ∈ images, image.index < imageBound := by
  induction alike with
  | nil => simp
  | cons first _ ih =>
    simp only [List.forall_mem_cons]
    exact ⟨⟨(inside first).1, ih.1⟩, (inside first).2, ih.2⟩

namespace Shape.Alike

variable {shape made other otherMade : Shape}

variable (alike : shape.Alike pairing made)
include alike

theorem mono (within : pairing.Within wider) :
    shape.Alike wider made := by
  cases alike with
  | function parameters result =>
    exact .function (Paired.mono within.types parameters) (within.types result)
  | object paired => exact .object (within.objects paired)
  | typeName paired => exact .typeName (within.types paired)
  | _ => constructor

theorem parts :
    Paired.Alike pairing.types shape.parts made.parts := by
  cases alike with
  | function parameters result => exact .cons result parameters
  | typeName denoted => exact .cons denoted .nil
  | _ => exact .nil

theorem eq_iff (otherAlike : other.Alike pairing otherMade) :
    shape = other ↔ made = otherMade := by
  cases alike <;> cases otherAlike <;> try simp
  case function.function parameters result _ _ _ _ otherParameters otherResult =>
    rw [forall₂_eq_iff (fun _ _ => pairing.types_iff) parameters otherParameters,
      pairing.types_iff result otherResult]
  case object.object paired _ _ otherPaired => exact pairing.objects_iff paired otherPaired
  case typeName.typeName paired _ _ otherPaired => exact pairing.types_iff paired otherPaired

end Shape.Alike

namespace Registry.Alike

variable {left right : Registry} {shape made : Shape}

variable (alike : left.Alike pairing right)
include alike

theorem inside (paired : pairing.types type image) :
    type.index < left.size ∧ image.index < right.size := by
  obtain ⟨_, _, row, madeRow, _⟩ := alike.rows paired
  exact ⟨(Array.getElem?_eq_some_iff.mp row).1, (Array.getElem?_eq_some_iff.mp madeRow).1⟩

theorem intern (shapes : shape.Alike pairing made) :
    ∃ wider,
      pairing.Within wider ∧
        (left.intern shape).2.Alike wider (right.intern made).2 ∧
        wider.types (left.intern shape).1 (right.intern made).1 := by
  let types (type image : TypeId) : Prop :=
    pairing.types type image ∨ type = (left.intern shape).1 ∧ image = (right.intern made).1
  have rows {type image : TypeId} (paired : types type image) :
      ∃ row madeRow,
        (left.intern shape).2.shape? type = some row ∧
          (right.intern made).2.shape? image = some madeRow ∧ row.Alike pairing madeRow := by
    rcases paired with old | ⟨rfl, rfl⟩
    · obtain ⟨row, madeRow, isRow, isMadeRow, same⟩ := alike.rows old
      exact ⟨row, madeRow, shape?_of_longer (left.prefix_intern shape) isRow,
        shape?_of_longer (right.prefix_intern made) isMadeRow, same⟩
    · exact ⟨shape, made, left.shape?_intern shape, right.shape?_intern made, shapes⟩
  let wider : Pairing :=
    { pairing with
      types := types
      basic := fun type isBasic => .inl (pairing.basic type isBasic)
      types_iff := fun paired otherPaired => by
        obtain ⟨_, _, isRow, isMadeRow, same⟩ := rows paired
        obtain ⟨_, _, isOtherRow, isOtherMadeRow, otherSame⟩ := rows otherPaired
        rw [shape?_eq_iff isRow isOtherRow, shape?_eq_iff isMadeRow isOtherMadeRow,
          same.eq_iff otherSame] }
  have within : pairing.Within wider := ⟨.inl, id⟩
  have parts := Paired.forall_mem alike.inside shapes.parts
  refine ⟨wider, within, ⟨fun paired => ?_, fun paired => ?_,
    alike.ordered.1.intern parts.1, alike.ordered.2.intern parts.2⟩, .inr ⟨rfl, rfl⟩⟩
  · obtain ⟨row, madeRow, isRow, isMadeRow, same⟩ := rows paired
    exact ⟨row, madeRow, isRow, isMadeRow, same.mono within⟩
  · obtain ⟨object, madeObject, found, madeFound, same⟩ := alike.objects paired
    rw [objects_intern, objects_intern]
    exact ⟨object, madeObject, found, madeFound, Paired.mono within.types same⟩

theorem declareObject (name : String) (kind : ObjectKind) :
    ∃ wider,
      pairing.Within wider ∧
        (left.declareObject name kind).2.Alike wider (right.declareObject name kind).2 ∧
        wider.types (left.declareObject name kind).1 (right.declareObject name kind).1 := by
  have old {id image : ObjectId} (paired : pairing.objects id image) :
      id.index < left.objects.size ∧ image.index < right.objects.size := by
    obtain ⟨_, _, found, madeFound, _⟩ := alike.objects paired
    exact ⟨(Array.getElem?_eq_some_iff.mp found).1, (Array.getElem?_eq_some_iff.mp madeFound).1⟩
  let wider : Pairing :=
    { pairing with
      objects := fun id image =>
        pairing.objects id image ∨ id = ⟨left.objects.size⟩ ∧ image = ⟨right.objects.size⟩
      objects_iff := by
        rintro id image other otherImage (paired | ⟨rfl, rfl⟩) (otherPaired | ⟨rfl, rfl⟩)
        · exact pairing.objects_iff paired otherPaired
        · grind
        · grind
        · simp }
  have within : pairing.Within wider := ⟨id, .inl⟩
  have declared : Registry.Alike wider
      { left with objects := left.objects.push ⟨name, kind, [], none⟩ }
      { right with objects := right.objects.push ⟨name, kind, [], none⟩ } := by
    refine ⟨fun paired => ?_, ?_, alike.ordered⟩
    · obtain ⟨row, madeRow, isRow, isMadeRow, same⟩ := alike.rows paired
      exact ⟨row, madeRow, isRow, isMadeRow, same.mono within⟩
    · rintro id image (paired | ⟨rfl, rfl⟩)
      · obtain ⟨object, made, found, madeFound, same⟩ := alike.objects paired
        obtain ⟨inside, imageInside⟩ := old paired
        refine ⟨object, made, ?_, ?_, Paired.mono within.types same⟩
        · rw [Array.getElem?_push_lt inside, ← found, Array.getElem?_eq_getElem inside]
        · rw [Array.getElem?_push_lt imageInside, ← madeFound,
            Array.getElem?_eq_getElem imageInside]
      · exact ⟨_, _, Array.getElem?_push_size, Array.getElem?_push_size, rfl, rfl, .nil, .none⟩
  obtain ⟨widest, more, interned, types⟩ := declared.intern (.object (.inr ⟨rfl, rfl⟩))
  exact ⟨widest, within.trans more, interned, types⟩

theorem objectIds (paired : pairing.types type image) :
    Option.Rel pairing.objects (left.objectId? type) (right.objectId? image) := by
  obtain ⟨_, _, row, madeRow, same⟩ := alike.rows paired
  rw [objectId?, objectId?, row, madeRow]
  cases same with
  | object paired => exact .some paired
  | _ => exact .none

theorem object? (paired : pairing.types type image) :
    Paired.Alike pairing.types (left.object? type) (right.object? image) := by
  have ids := alike.objectIds paired
  unfold Registry.object?
  generalize left.objectId? type = id, right.objectId? image = madeId at ids
  cases ids with
  | none => exact .none
  | some ids =>
    obtain ⟨_, _, found, madeFound, same⟩ := alike.objects ids
    simp only [Option.bind_eq_bind, Option.bind_some, found, madeFound]
    exact .some same

theorem modifyObject {change madeChange : ObjectType → ObjectType}
    (paired : pairing.types type image)
    (changes :
      ∀ {object made},
        Paired.Alike pairing.types object made →
        Paired.Alike pairing.types (change object) (madeChange made)) :
    (left.modifyObject type change).Alike pairing (right.modifyObject image madeChange) := by
  have ids := alike.objectIds paired
  unfold Registry.modifyObject
  generalize left.objectId? type = id, right.objectId? image = madeId at ids
  cases ids with
  | none => exact alike
  | @some id madeId ids =>
    refine { alike with objects := fun {other otherMade} others => ?_ }
    obtain ⟨object, made, found, madeFound, same⟩ := alike.objects others
    have together : id.index = other.index ↔ madeId.index = otherMade.index := by
      simpa only [← ObjectId.mk.injEq] using pairing.objects_iff ids others
    simp only [Array.getElem?_modify, found, madeFound, ← together]
    split
    · exact ⟨_, _, rfl, rfl, changes same⟩
    · exact ⟨_, _, rfl, rfl, same⟩

theorem addMember {member made : Member}
    (paired : pairing.types type image) (members : Paired.Alike pairing.types member made) :
    (left.addMember type member).1 = (right.addMember image made).1 ∧
      (left.addMember type member).2.Alike pairing (right.addMember image made).2 := by
  have objects := alike.object? paired
  unfold Registry.addMember
  generalize left.object? type = object, right.object? image = madeObject at objects
  cases objects with
  | none => exact ⟨rfl, alike⟩
  | @some object madeObject objects =>
    have free : (object.member? made.name).isSome = (madeObject.member? made.name).isSome :=
      Paired.isSome_eq (Paired.member? objects.2.2.1 made.name)
    simp only [members.1, free]
    split
    · exact ⟨rfl, alike⟩
    · exact ⟨rfl, alike.modifyObject paired fun same =>
        ⟨same.1, same.2.1, Paired.append same.2.2.1 (.cons members .nil), same.2.2.2⟩⟩

theorem setMemberType {found madeFound : TypeId}
    (paired : pairing.types type image) (name : String) (types : pairing.types found madeFound) :
    (left.setMemberType type name found).Alike pairing
      (right.setMemberType image name madeFound) := by
  refine alike.modifyObject paired fun same => ⟨same.1, same.2.1, ?_, same.2.2.2⟩
  refine Paired.map same.2.2.1 fun same => ?_
  rw [same.1]
  split
  · exact ⟨rfl, .some types, same.2.2⟩
  · exact same

theorem denoted? (paired : pairing.types type image) :
    Paired.Alike pairing.types (left.denoted? type) (right.denoted? image) := by
  obtain ⟨_, _, row, madeRow, same⟩ := alike.rows paired
  rw [Registry.denoted?, Registry.denoted?, row, madeRow]
  cases same with
  | typeName denoted => exact .some denoted
  | _ => exact .none

theorem callable? (callee : pairing.types type image) :
    Paired.Alike pairing.types (Check.callable? left type) (Check.callable? right image) := by
  obtain ⟨_, _, row, madeRow, same⟩ := alike.rows callee
  rw [Check.callable?, Check.callable?, row, madeRow]
  cases same with
  | function parameters result => exact .some ⟨parameters, result⟩
  | @typeName denoted made paired =>
    have objects := alike.object? paired
    simp only
    generalize left.object? denoted = object, right.object? made = madeObject at objects
    cases objects with
    | none => exact .none
    | @some object madeObject objects =>
      have constructors := objects.2.2.2
      simp only [Option.bind_eq_bind, Option.bind_some]
      generalize object.constructor = found, madeObject.constructor = madeFound at constructors
      cases constructors with
      | none => exact .none
      | some types => exact .some ⟨types, paired⟩
  | _ => exact .none

theorem describeUpTo {fuel more : Nat}
    (paired : pairing.types type image) (enough : type.index < fuel)
    (isMore : image.index < more) :
    left.describeUpTo fuel type = right.describeUpTo more image := by
  induction fuel generalizing type image more with
  | zero => omega
  | succ fuel ih =>
    obtain ⟨more, rfl⟩ := Nat.exists_eq_add_one_of_ne_zero (Nat.ne_zero_of_lt isMore)
    obtain ⟨shape, made, row, madeRow, same⟩ := alike.rows paired
    have parts := alike.ordered.1 type shape row
    have madeParts := alike.ordered.2 image made madeRow
    have part {part madePart : TypeId} (paired : pairing.types part madePart)
        (earlier : part.index < type.index) (madeEarlier : madePart.index < image.index) :
        left.describeUpTo fuel part = right.describeUpTo more madePart :=
      ih paired (by omega) (by omega)
    unfold Registry.describeUpTo
    rw [row, madeRow]
    cases same with
    | function parameters result =>
      simp only [Shape.parts, List.forall_mem_cons] at parts madeParts
      have texts {types images : List TypeId} (paired : Paired.Alike pairing.types types images)
          (parts : ∀ part ∈ types, part.index < type.index)
          (madeParts : ∀ part ∈ images, part.index < image.index) :
          types.mapM (left.describeUpTo fuel) = images.mapM (right.describeUpTo more) := by
        induction paired with
        | nil => rfl
        | cons first _ ih =>
          simp only [List.forall_mem_cons] at parts madeParts
          rw [List.mapM_cons, List.mapM_cons, part first parts.1 madeParts.1,
            ih parts.2 madeParts.2]
      simp only [Option.bind_eq_bind, Option.bind_some, texts parameters parts.2 madeParts.2,
        part result parts.1 madeParts.1]
    | object paired =>
      obtain ⟨_, _, object, madeObject, name, _⟩ := alike.objects paired
      simp only [Option.bind_eq_bind, Option.bind_some, object, madeObject]
      exact congrArg some name
    | typeName denoted =>
      simp only [Option.bind_eq_bind, Option.bind_some,
        part denoted (parts _ List.mem_cons_self) (madeParts _ List.mem_cons_self)]
    | _ => rfl

theorem describe (paired : pairing.types type image) :
    left.describe type = right.describe image := by
  obtain ⟨inside, imageInside⟩ := alike.inside paired
  unfold Registry.describe Registry.describe?
  rw [alike.describeUpTo paired (Nat.lt_succ_of_lt inside) (Nat.lt_succ_of_lt imageInside)]

end Registry.Alike

instance : Likeness Pairing where
  Within := Pairing.Within
  same := Pairing.types
  types := Pairing.types
  own := Pairing.types
  registries := Registry.Alike
  faulty := fun _ => False
  strict := False

instance : Likeness.Lawful Pairing where
  refl := Pairing.Within.refl
  trans := Pairing.Within.trans
  same_mono := fun within => within.types
  types_mono := fun within => within.types
  own_mono := fun within => within.types
  same_of_types := id
  types_of_own := id
  same_iff := Pairing.types_iff _
  basic := fun pairing type isBasic => pairing.basic type (List.mem_cons_of_mem _ isBasic)
  unknown := fun pairing => ⟨pairing.basic _ List.mem_cons_self,
    fun _ => pairing.basic _ List.mem_cons_self⟩
  describe := Registry.Alike.describe
  denoted? := Registry.Alike.denoted?
  callable? := Registry.Alike.callable?
  members := fun {_ left right type image} alike paired => by
    have objects := alike.object? paired
    generalize left.object? type = object, right.object? image = made at objects
    cases objects with
    | none => exact .none
    | some objects => exact .some objects.2.2.1
  function := fun alike parameters result => by
    obtain ⟨wider, within, interned, types⟩ := alike.intern (.function parameters result)
    exact ⟨wider, within, id, interned, types⟩
  typeNameOf := fun alike paired => by
    obtain ⟨wider, within, interned, types⟩ := alike.intern (.typeName paired)
    exact ⟨wider, within, id, interned, types⟩
  declareObject := fun name kind alike => by
    obtain ⟨wider, within, declared, types⟩ := alike.declareObject name kind
    exact ⟨wider, within, id, declared, types⟩
  addMember alike := alike.addMember
  setMemberType := fun name alike paired types => alike.setMemberType paired name types
  setConstructor := fun alike paired types =>
    alike.modifyObject paired fun same => ⟨same.1, same.2.1, same.2.2.1, .some types⟩
  fail := fun {pairing} _ _ alike =>
    ⟨pairing, .refl pairing, alike, pairing.basic _ List.mem_cons_self⟩

end Toolshed
