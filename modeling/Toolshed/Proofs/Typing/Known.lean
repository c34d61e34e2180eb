import Toolshed.Proofs.Typing.Clear
import Toolshed.Proofs.Typing.ModuleAgreement

namespace Toolshed

/-!
# Checks that find out all types

As long as a check notes no fault, every type that it comes across is clear: those
of names and expressions, of rows and of the members of classes.
-/

/-- The types a check may meet, the newer ones among them, and whether it has failed. -/
structure Knowledge (base : Registry) where
  types : TypeId → Prop
  own : TypeId → Prop
  faulty : Prop
  basic : ∀ type ∈ [TypeId.number, .string, .boolean, .unit], types type

namespace Knowledge

variable {base registry : Registry} {knowledge : Knowledge base} {type : TypeId} {shape : Shape}

def Has (knowledge : Knowledge base) (type : TypeId) : Prop :=
  ¬knowledge.faulty → knowledge.types type

def add (knowledge : Knowledge base) (type : TypeId) : Knowledge base :=
  { knowledge with
    types := fun other => knowledge.types other ∨ other = type
    basic := fun other isBasic => .inl (knowledge.basic other isBasic) }

def addOwn (knowledge : Knowledge base) (type : TypeId) : Knowledge base :=
  { knowledge.add type with own := fun other => knowledge.own other ∨ other = type }

structure Covers (knowledge : Knowledge base) (registry : Registry) : Prop where
  rows : Registry.initial.shapes.toList <+: registry.shapes.toList
  closed : registry.Closed (base.objects.size ≤ ·) knowledge.types
  shapes : ∀ index, base.size ≤ index → index < registry.size → knowledge.types ⟨index⟩
  room : base.objects.size ≤ registry.objects.size
  objects :
    ∀ (index : Nat) (object : ObjectType),
      base.objects.size ≤ index →
      registry.objects[index]? = some object →
      object.Within knowledge.types ∧
        ∀ parameters,
          object.constructor = some parameters → ∀ type ∈ parameters, knowledge.types type
  own :
    ∀ type, knowledge.own type →
      ∃ id, registry.objectId? type = some id ∧ base.objects.size ≤ id.index

namespace Covers

variable (covers : knowledge.Covers registry)
include covers

theorem intern
    (within : shape.Within registry (base.objects.size ≤ ·) knowledge.types) :
    (knowledge.add (registry.intern shape).1).Covers (registry.intern shape).2 := by
  have rows := registry.prefix_intern shape
  have same := registry.objects_intern shape
  refine ⟨covers.rows.trans rows, ?_, ?_, by simpa [same] using covers.room, ?_, ?_⟩
  · rintro type (known | rfl)
    · obtain ⟨found, isFound, inFound⟩ := covers.closed type known
      exact ⟨found, Registry.shape?_of_longer rows isFound,
        (inFound.of_objects same).mono fun _ => .inl⟩
    · exact ⟨shape, registry.shape?_intern shape, (within.of_objects same).mono fun _ => .inl⟩
  · intro index newer inside
    by_cases old : index < registry.size
    · exact .inl (covers.shapes index newer old)
    · refine .inr ?_
      unfold Registry.intern at inside ⊢
      split at inside
      · exact absurd inside old
      · simp only [Registry.size, Array.size_push] at inside old ⊢
        exact congrArg TypeId.mk (by omega)
  · intro index object newer found
    rw [same] at found
    obtain ⟨members, constructor⟩ := covers.objects index object newer found
    exact ⟨members.mono fun _ => .inl, fun parameters isParameters type member =>
      .inl (constructor parameters isParameters type member)⟩
  · intro type isOwn
    obtain ⟨id, isId, newer⟩ := covers.own type isOwn
    exact ⟨id, Registry.objectId?_of_longer rows isId, newer⟩

theorem declareObject (name : String) (kind : ObjectKind) :
    (knowledge.addOwn (registry.declareObject name kind).1).Covers
      (registry.declareObject name kind).2 := by
  let larger : Registry :=
    { registry with objects := registry.objects.push ⟨name, kind, [], none⟩ }
  have declared : knowledge.Covers larger := by
    refine ⟨covers.rows, covers.closed.longer List.prefix_rfl (by simp [larger]), covers.shapes,
      by simpa [larger] using Nat.le_succ_of_le covers.room, ?_, covers.own⟩
    intro index object newer found
    simp only [larger, Array.getElem?_push] at found
    split at found
    · obtain rfl := Option.some.inj found
      exact ⟨by simp [ObjectType.Within], by simp⟩
    · exact covers.objects index object newer found
  have within : (Shape.object ⟨registry.objects.size⟩).Within larger (base.objects.size ≤ ·)
      knowledge.types :=
    ⟨_, Array.getElem?_push_size, by simp [ObjectType.Within], .inr covers.room⟩
  refine { declared.intern within with own := ?_ }
  rintro type (isOwn | rfl)
  · exact (declared.intern within).own type isOwn
  · refine ⟨⟨registry.objects.size⟩, ?_, covers.room⟩
    simp [Registry.declareObject, Registry.objectId?, Registry.shape?_intern]

theorem modifyObject (isOwn : knowledge.own type)
    {change : ObjectType → ObjectType}
    (members :
      ∀ object,
        object.Within knowledge.types →
        (change object).Within knowledge.types)
    (constructor :
      ∀ object parameters,
        (change object).constructor = some parameters →
        object.constructor = some parameters ∨ ∀ type ∈ parameters, knowledge.types type) :
    knowledge.Covers (registry.modifyObject type change) := by
  obtain ⟨number, isId, newer⟩ := covers.own type isOwn
  have rows : (registry.modifyObject type change).shapes = registry.shapes :=
    Registry.shapes_modifyObject
  refine ⟨rows ▸ covers.rows, covers.closed.modifyObject isId newer members, ?_, ?_, ?_, ?_⟩
  · simpa only [Registry.size, rows] using covers.shapes
  · simpa [Registry.objects_modifyObject isId] using covers.room
  · intro index object newer found
    rw [Registry.objects_modifyObject isId, Array.getElem?_modify] at found
    split at found
    · obtain ⟨before, isBefore, rfl⟩ := Option.map_eq_some_iff.mp found
      obtain ⟨within, old⟩ := covers.objects index before newer isBefore
      refine ⟨members before within, fun parameters isParameters => ?_⟩
      exact (constructor before parameters isParameters).elim (old parameters) id
    · exact covers.objects index object newer found
  · intro other isOwn
    unfold Registry.objectId? Registry.shape?
    rw [rows]
    exact covers.own other isOwn

theorem addMember {member : Member}
    (isOwn : knowledge.own type) (known : ∀ found ∈ member.type, knowledge.types found) :
    knowledge.Covers (registry.addMember type member).2 := by
  unfold Registry.addMember
  split
  · exact covers
  · split
    · exact covers
    · refine covers.modifyObject isOwn (fun object within => ?_) fun _ _ => .inl
      exact List.forall_mem_append.mpr ⟨within, List.forall_mem_singleton.mpr known⟩

theorem setMemberType {found : TypeId}
    (isOwn : knowledge.own type) (name : String) (known : knowledge.types found) :
    knowledge.Covers (registry.setMemberType type name found) := by
  refine covers.modifyObject isOwn (fun object within member isMember type typed => ?_)
    fun _ _ => .inl
  obtain ⟨before, isBefore, rfl⟩ := List.mem_map.mp isMember
  split at typed
  · exact Option.some.inj typed ▸ known
  · exact within before isBefore type typed

end Covers

instance : Likeness (Knowledge base) where
  Within := fun knowledge more =>
    (∀ type, knowledge.Has type → more.Has type) ∧
      (∀ type, knowledge.own type → more.own type) ∧ (knowledge.faulty → more.faulty)
  same := fun _ type image => type = image
  types := fun knowledge type image => type = image ∧ knowledge.Has type
  own := fun knowledge type image =>
    type = image ∧ knowledge.Has type ∧ (¬knowledge.faulty → knowledge.own type)
  registries := fun knowledge left right =>
    left = right ∧ (¬knowledge.faulty → knowledge.Covers left)
  faulty := Knowledge.faulty
  strict := True

open Likeness (Alike)

theorem eq_of_alike {types images : List TypeId} (alike : Alike knowledge types images) :
    types = images ∧ ∀ type ∈ types, knowledge.Has type := by
  induction alike with
  | nil => simp
  | cons first _ ih =>
    obtain ⟨rfl, known⟩ := first
    obtain ⟨rfl, others⟩ := ih
    exact ⟨rfl, List.forall_mem_cons.mpr ⟨known, others⟩⟩

theorem eq_of_alikeMember {member image : Member} (alike : Alike knowledge member image) :
    member = image ∧ ∀ type ∈ member.type, knowledge.Has type := by
  obtain ⟨name, type, mutable⟩ := member
  obtain ⟨_, _, _⟩ := image
  obtain ⟨rfl, types, rfl⟩ := alike
  cases types with
  | none => simp
  | some same =>
    obtain ⟨rfl, known⟩ := same
    simpa using known

theorem alike_members {object : ObjectType}
    (known : ¬knowledge.faulty → object.Within knowledge.types) :
    Alike knowledge object.members object.members := by
  refine List.forall₂_same.mpr fun member isMember => ⟨rfl, ?_, rfl⟩
  cases isType : member.type with
  | none => exact .none
  | some type => exact .some ⟨rfl, fun quiet => known quiet member isMember type isType⟩

theorem makes_intern {left : Registry} (covers : ¬knowledge.faulty → knowledge.Covers left)
    (within :
      ¬knowledge.faulty → shape.Within left (base.objects.size ≤ ·) knowledge.types) :
    Likeness.Makes knowledge Likeness.types (left.intern shape) (left.intern shape) :=
  ⟨knowledge.add (left.intern shape).1,
    ⟨fun _ known quiet => .inl (known quiet), fun _ => id, id⟩, id,
    ⟨rfl, fun quiet => (covers quiet).intern (within quiet)⟩, rfl, fun _ => .inr rfl⟩

instance : Likeness.Lawful (Knowledge base) where
  refl := fun _ => ⟨fun _ => id, fun _ => id, id⟩
  trans := fun first second => ⟨fun type known => second.1 type (first.1 type known),
    fun type own => second.2.1 type (first.2.1 type own), second.2.2 ∘ first.2.2⟩
  same_mono := fun _ => id
  types_mono := fun within => .imp_right (within.1 _)
  own_mono := fun within ⟨same, known, own⟩ => ⟨same, within.1 _ known, fun quiet =>
    within.2.1 _ (own fun isFaulty => quiet (within.2.2 isFaulty))⟩
  same_of_types := And.left
  types_of_own := fun own => ⟨own.1, own.2.1⟩
  same_iff := by
    rintro _ _ _ _ _ rfl rfl
    rfl
  basic := fun knowledge type isBasic => ⟨rfl, fun _ => knowledge.basic type isBasic⟩
  unknown := fun _ => ⟨rfl, fun lenient => absurd trivial lenient⟩
  describe := by
    rintro _ _ _ _ _ ⟨rfl, _⟩ rfl
    rfl
  denoted? := by
    rintro _ left _ type _ ⟨rfl, covers⟩ ⟨rfl, known⟩
    cases isDenoted : left.denoted? type with
    | none => exact .none
    | some denoted =>
      exact .some ⟨rfl, fun quiet => (covers quiet).closed.denoted (known quiet) isDenoted⟩
  callable? := by
    rintro _ left _ type _ ⟨rfl, covers⟩ ⟨rfl, known⟩
    cases callable : Check.callable? left type with
    | none => exact .none
    | some found =>
      exact .some ⟨List.forall₂_same.mpr fun _ _ => rfl, rfl,
        fun quiet => (covers quiet).closed.result (known quiet) callable⟩
  members := by
    rintro _ left _ type _ ⟨rfl, covers⟩ ⟨rfl, known⟩
    cases isObject : left.object? type with
    | none => exact .none
    | some object =>
      exact .some (alike_members fun quiet => (covers quiet).closed.object (known quiet) isObject)
  function := by
    rintro _ _ _ _ _ _ _ ⟨rfl, covers⟩ parameters ⟨rfl, known⟩
    obtain ⟨rfl, areKnown⟩ := eq_of_alike parameters
    exact makes_intern covers fun quiet =>
      ⟨fun type member => areKnown type member quiet, known quiet⟩
  typeNameOf := by
    rintro _ _ _ _ _ ⟨rfl, covers⟩ ⟨rfl, known⟩
    exact makes_intern covers known
  declareObject := by
    rintro knowledge left _ name kind ⟨rfl, covers⟩
    exact ⟨knowledge.addOwn (left.declareObject name kind).1,
      ⟨fun _ known quiet => .inl (known quiet), fun _ => .inl, id⟩, id,
      ⟨rfl, fun quiet => (covers quiet).declareObject name kind⟩,
      rfl, fun _ => .inr rfl, fun _ => .inr rfl⟩
  addMember := by
    rintro _ _ _ _ _ _ _ ⟨rfl, covers⟩ ⟨rfl, _, own⟩ members
    obtain ⟨rfl, known⟩ := eq_of_alikeMember members
    exact ⟨rfl, rfl, fun quiet => (covers quiet).addMember (own quiet) fun type isType =>
      known type isType quiet⟩
  setMemberType := by
    rintro _ _ _ _ _ _ _ name ⟨rfl, covers⟩ ⟨rfl, _, own⟩ ⟨rfl, known⟩
    exact ⟨rfl, fun quiet => (covers quiet).setMemberType (own quiet) name (known quiet)⟩
  setConstructor := by
    rintro _ _ _ _ _ _ _ ⟨rfl, covers⟩ ⟨rfl, _, own⟩ types
    obtain ⟨rfl, known⟩ := eq_of_alike types
    refine ⟨rfl, fun quiet => (covers quiet).modifyObject (own quiet) (fun _ within => within) ?_⟩
    intro object parameters isParameters
    exact .inr (Option.some.inj isParameters ▸ fun type member => known type member quiet)
  fail := fun {knowledge} _ _ registries =>
    ⟨{ knowledge with faulty := True },
      ⟨fun _ _ quiet => absurd trivial quiet, fun _ => id, fun _ => trivial⟩,
      ⟨registries.1, fun quiet => absurd trivial quiet⟩, rfl, fun quiet => absurd trivial quiet⟩

theorem types_of_get? {state : CheckState} {id : NodeId} (known : state.Alike knowledge state)
    (quiet : ¬knowledge.faulty) (found : state.types.get? id = some type) :
    knowledge.types type := by
  have alike : Alike knowledge (state.types.get? id) (state.types.get? id) :=
    Paired.lookup known.types id
  rw [found] at alike
  cases alike with
  | some same => exact same.2 quiet

end Knowledge

end Toolshed
