import Toolshed.Proofs.Typing.Pairing
import Toolshed.Proofs.Typing.Refinement

namespace Toolshed

/-!
# Histories of a registry

A registry is only changed by its operations, and these are only given types that
it has answered before.
-/

namespace Registry

/-- What is done with a registry. -/
inductive Operation where
  | function (parameters : List TypeId) (result : TypeId)
  | typeNameOf (denoted : TypeId)
  | declareObject (name : String) (kind : ObjectKind)
  | addMember (type : TypeId) (member : Member)
  | setMemberType (type : TypeId) (name : String) (memberType : TypeId)
  | setConstructor (type : TypeId) (parameters : List TypeId)
  deriving Repr, DecidableEq

/-- The types that an operation is given. -/
def Operation.types : Operation → List TypeId
  | .function parameters result => result :: parameters
  | .typeNameOf denoted => [denoted]
  | .declareObject _ _ => []
  | .addMember type member => type :: member.type.toList
  | .setMemberType type _ memberType => [type, memberType]
  | .setConstructor type parameters => type :: parameters

def Operation.run (registry : Registry) : Operation → Option TypeId × Registry
  | .function parameters result => (registry.function parameters result).map some id
  | .typeNameOf denoted => (registry.typeNameOf denoted).map some id
  | .declareObject name kind => (registry.declareObject name kind).map some id
  | .addMember type member => (none, (registry.addMember type member).2)
  | .setMemberType type name memberType => (none, registry.setMemberType type name memberType)
  | .setConstructor type parameters => (none, registry.setConstructor type parameters)

def Operation.added (registry : Registry) (id : ObjectId) : Operation → List String
  | .addMember type member =>
    if registry.objectId? type = some id ∧ (registry.addMember type member).1 then
      [member.name]
    else
      []
  | _ => []

/-- A registry, and the types that it has answered so far. -/
structure History where
  registry : Registry
  returned : List TypeId
  deriving Repr, DecidableEq

namespace History

/-- A fresh registry has only the types that are always there. -/
def fresh : History :=
  ⟨.initial, [.unknown, .number, .string, .boolean, .unit]⟩

def after (history : History) (operation : Operation) : History :=
  let (answer, registry) := operation.run history.registry
  ⟨registry, answer.toList ++ history.returned⟩

def run (history : History) (operations : List Operation) : History :=
  operations.foldl after history

/-- Each operation is given only types that were answered before it. -/
def Allows (history : History) : List Operation → Prop
  | [] => True
  | operation :: rest =>
    (∀ type ∈ operation.types, type ∈ history.returned) ∧ (history.after operation).Allows rest

/-- The names that operations give to new members of an object type, in their order. -/
def added (history : History) (id : ObjectId) : List Operation → List String
  | [] => []
  | operation :: rest =>
    operation.added history.registry id ++ (history.after operation).added id rest

instance decidableAllows :
    (history : History) → (operations : List Operation) → Decidable (history.Allows operations)
  | _, [] => inferInstanceAs (Decidable True)
  | history, operation :: rest =>
    have := decidableAllows (history.after operation) rest
    inferInstanceAs (Decidable (_ ∧ (history.after operation).Allows rest))

end History

/-- A type with its parts written out, down to the basic types and object types. -/
inductive Tree where
  | leaf (shape : Shape)
  | function (parameters : List Tree) (result : Tree)
  | typeName (denoted : Tree)

/-- A type of a registry is a tree when its parts are written out. -/
inductive Unfolds (registry : Registry) : TypeId → Tree → Prop where
  | leaf {type : TypeId} {shape : Shape} :
      registry.shape? type = some shape →
      shape.parts = [] →
      Unfolds registry type (.leaf shape)
  | function {type result : TypeId} {parameters : List TypeId} {trees : List Tree} {tree : Tree} :
      registry.shape? type = some (.function parameters result) →
      List.Forall₂ (Unfolds registry) parameters trees →
      Unfolds registry result tree →
      Unfolds registry type (.function trees tree)
  | typeName {type denoted : TypeId} {tree : Tree} :
      registry.shape? type = some (.typeName denoted) →
      Unfolds registry denoted tree →
      Unfolds registry type (.typeName tree)

variable {registry larger : Registry} {type other : TypeId} {shape : Shape}

/-- The map has an entry for each row, in the order of the rows, and no other. -/
def Entered (registry : Registry) : Prop :=
  registry.cache.reverse =
    registry.shapes.toList.zipIdx.map fun (shape, index) => (shape, ⟨index⟩)

theorem Entered.intern (entered : registry.Entered) (shape : Shape) :
    (registry.intern shape).2.Entered := by
  unfold Registry.intern
  split
  · exact entered
  · rw [Entered] at entered ⊢
    simp [entered, size, List.zipIdx_append]

/--
Rows and the entries of the map go together, a row is made of earlier ones, and
each object has a row. The members of an object have different names.
-/
structure Canonical (registry : Registry) : Prop where
  entered : registry.Entered
  ordered : Ordered registry.shapes
  objects :
    ∀ id : ObjectId,
      id.index < registry.objects.size ↔ ∃ type, registry.shape? type = some (.object id)
  names : ∀ object ∈ registry.objects, (object.members.map Member.name).Nodup

theorem names_setMemberType {object : ObjectType} {name : String} :
    (object.setMemberType name type).members.map Member.name =
      object.members.map Member.name := by
  simp only [ObjectType.setMemberType, List.map_map]
  refine List.map_congr_left fun member _ => ?_
  simp only [Function.comp_apply]
  split <;> rfl

namespace Canonical

variable (canonical : registry.Canonical)
include canonical

theorem mem_cache_iff :
    (shape, type) ∈ registry.cache ↔ registry.shape? type = some shape := by
  rw [← List.mem_reverse, canonical.entered, List.mem_map, shape?, ← Array.getElem?_toList]
  constructor
  · rintro ⟨⟨made, index⟩, isRow, same⟩
    obtain ⟨rfl, rfl⟩ := Prod.mk.inj same
    exact List.mem_zipIdx_iff_getElem?.mp isRow
  · exact fun found => ⟨(shape, type.index), List.mem_zipIdx_iff_getElem?.mpr found, rfl⟩

theorem length_cache :
    registry.cache.length = registry.size := by
  have entries := congrArg List.length canonical.entered
  simpa [size] using entries

theorem object_iff {id : ObjectId} :
    id.index < registry.objects.size ↔ ∃! type, registry.shape? type = some (.object id) := by
  rw [canonical.objects]
  refine ⟨fun ⟨type, found⟩ => ⟨type, found, fun other isOther => ?_⟩, ExistsUnique.exists⟩
  exact (shape?_eq_iff isOther found).mpr rfl

theorem parts_induction {motive : TypeId → Prop}
    (step :
      ∀ {type shape},
        registry.shape? type = some shape →
        (∀ part ∈ shape.parts, part.index < type.index ∧ motive part) →
        motive type)
    (inside : type.index < registry.size) : motive type := by
  induction isIndex : type.index using Nat.strongRecOn generalizing type with | _ index ih
  subst isIndex
  have found : registry.shape? type = some registry.shapes[type.index] :=
    Array.getElem?_eq_getElem inside
  refine step found fun part isPart => ?_
  have earlier := canonical.ordered type _ found part isPart
  exact ⟨earlier, ih part.index earlier (Nat.lt_trans earlier inside) rfl⟩

theorem unfolds_iff {tree otherTree : Tree}
    (unfolds : registry.Unfolds type tree) (otherUnfolds : registry.Unfolds other otherTree) :
    type = other ↔ tree = otherTree := by
  have inside : type.index < registry.size := by
    cases unfolds with | _ found => exact (Array.getElem?_eq_some_iff.mp found).1
  refine canonical.parts_induction
    (motive := fun type =>
      ∀ {other tree otherTree}, registry.Unfolds type tree → registry.Unfolds other otherTree →
        (type = other ↔ tree = otherTree))
    (fun {type shape} found parts other tree otherTree unfolds otherUnfolds => ?_) inside unfolds
    otherUnfolds
  have eq_iff {made : Shape} (otherFound : registry.shape? other = some made) :
      type = other ↔ shape = made := shape?_eq_iff found otherFound
  -- The shape of the type decides how its tree begins.
  cases unfolds with
  | leaf isShape noParts =>
    obtain rfl := Option.some.inj (found.symm.trans isShape)
    cases otherUnfolds with
    | leaf otherFound _ => rw [eq_iff otherFound, Tree.leaf.injEq]
    | _ otherFound =>
      rw [eq_iff otherFound]
      exact iff_of_false (by rintro rfl; cases noParts) (by simp)
  | function isShape parameters result =>
    obtain rfl := Option.some.inj (found.symm.trans isShape)
    cases otherUnfolds with
    | function otherFound otherParameters otherResult =>
      rw [eq_iff otherFound, Shape.function.injEq, Tree.function.injEq,
        (parts _ List.mem_cons_self).2 result otherResult,
        forall₂_eq_iff (fun _ isPart => (parts _ (List.mem_cons_of_mem _ isPart)).2)
          parameters otherParameters]
    | leaf otherFound noParts =>
      rw [eq_iff otherFound]
      exact iff_of_false (by rintro rfl; cases noParts) (by simp)
    | typeName otherFound => simp [eq_iff otherFound]
  | typeName isShape denoted =>
    obtain rfl := Option.some.inj (found.symm.trans isShape)
    cases otherUnfolds with
    | typeName otherFound otherDenoted =>
      rw [eq_iff otherFound, Shape.typeName.injEq, Tree.typeName.injEq,
        (parts _ List.mem_cons_self).2 denoted otherDenoted]
    | leaf otherFound noParts =>
      rw [eq_iff otherFound]
      exact iff_of_false (by rintro rfl; cases noParts) (by simp)
    | function otherFound => simp [eq_iff otherFound]

theorem exists_unfolds (inside : type.index < registry.size) :
    ∃ tree, registry.Unfolds type tree := by
  refine canonical.parts_induction (motive := fun type => ∃ tree, registry.Unfolds type tree)
    (fun {type shape} found parts => ?_) inside
  cases shape with
  | function parameters result =>
    rw [Shape.parts, List.forall_mem_cons] at parts
    obtain ⟨⟨_, tree, isTree⟩, parts⟩ := parts
    have : Nonempty Tree := ⟨tree⟩
    choose! trees areTrees using fun part isPart => (parts part isPart).2
    exact ⟨_, .function found
      (List.forall₂_map_right_iff.mpr (List.forall₂_same.mpr areTrees)) isTree⟩
  | typeName denoted =>
    obtain ⟨_, tree, isTree⟩ := parts denoted List.mem_cons_self
    exact ⟨_, .typeName found isTree⟩
  | _ => exact ⟨_, .leaf found rfl⟩

theorem exists_describe? (inside : type.index < registry.size) :
    ∃ text, registry.describe? type = some text := by
  refine canonical.parts_induction
    (motive := fun type =>
      ∀ fuel, type.index < fuel → ∃ text, registry.describeUpTo fuel type = some text)
    (fun {type shape} found parts fuel enough => ?_) inside _ (Nat.lt_succ_of_lt inside)
  obtain ⟨fuel, rfl⟩ := Nat.exists_eq_add_one_of_ne_zero (Nat.ne_zero_of_lt enough)
  have shown (part : TypeId) (isPart : part ∈ shape.parts) :
      ∃ text, registry.describeUpTo fuel part = some text :=
    (parts part isPart).2 fuel (by have := (parts part isPart).1; omega)
  unfold Registry.describeUpTo
  rw [found]
  cases shape with
  | function parameters result =>
    rw [Shape.parts, List.forall_mem_cons] at shown
    obtain ⟨⟨text, isText⟩, shown⟩ := shown
    obtain ⟨texts, areTexts⟩ :
        ∃ texts, parameters.mapM (registry.describeUpTo fuel) = some texts := by
      clear found parts
      induction parameters with
      | nil => exact ⟨[], rfl⟩
      | cons first rest ih =>
        rw [List.forall_mem_cons] at shown
        obtain ⟨⟨firstText, isFirst⟩, others⟩ := shown
        obtain ⟨restTexts, areRest⟩ := ih others
        exact ⟨firstText :: restTexts, by simp [isFirst, areRest]⟩
    simp [areTexts, isText]
  | typeName denoted =>
    obtain ⟨text, isText⟩ := shown denoted List.mem_cons_self
    simp [isText]
  | object id => cases object : registry.objects[id.index]? <;> simp [object]
  | _ => simp

theorem intern
    (inside : ∀ part ∈ shape.parts, part.index < registry.size)
    (noObject : ∀ id, shape ≠ .object id) : (registry.intern shape).2.Canonical := by
  refine ⟨canonical.entered.intern shape, canonical.ordered.intern inside, fun id => ?_, ?_⟩
  · rw [objects_intern, canonical.objects]
    refine exists_congr fun type =>
      ⟨shape?_of_longer (registry.prefix_intern shape), fun found => ?_⟩
    exact (shape?_of_intern found).resolve_right fun same => noObject id same.symm
  · rw [objects_intern]
    exact canonical.names

theorem declareObject (name : String) (kind : ObjectKind) :
    (registry.declareObject name kind).2.Canonical := by
  let declared : Registry :=
    { registry with objects := registry.objects.push ⟨name, kind, [], none⟩ }
  have entered : declared.Entered := canonical.entered
  have objects : (registry.declareObject name kind).2.objects =
      registry.objects.push ⟨name, kind, [], none⟩ := objects_intern declared _
  have ordered : Ordered declared.shapes := canonical.ordered
  refine ⟨entered.intern _, ordered.intern (by simp [Shape.parts]), fun id => ?_, ?_⟩
  · rw [objects, Array.size_push, Nat.lt_succ_iff_lt_or_eq, canonical.objects]
    constructor
    · rintro (⟨type, found⟩ | isNew)
      · exact ⟨type, shape?_of_longer (declared.prefix_intern _) found⟩
      · exact ⟨_, (declared.shape?_intern _).trans (by rw [← isNew])⟩
    · rintro ⟨type, found⟩
      rcases shape?_of_intern found with old | same
      · exact .inl ⟨type, old⟩
      · exact .inr (by rw [Shape.object.inj same])
  · rw [objects]
    intro object isMember
    rcases Array.mem_push.mp isMember with old | rfl
    · exact canonical.names object old
    · exact List.nodup_nil

/-- A declared object has a row of its own after the others. -/
theorem declareObject_fst (name : String) (kind : ObjectKind) :
    (registry.declareObject name kind).1 = ⟨registry.size⟩ := by
  dsimp only [Registry.declareObject, Registry.intern]
  split
  · next type isType =>
      have found := (registry.inverse _ type).mp isType
      exact absurd ((canonical.objects ⟨registry.objects.size⟩).mpr ⟨type, found⟩)
        (Nat.lt_irrefl _)
  · rfl

theorem modifyObject {change : ObjectType → ObjectType}
    (names :
      ∀ object,
        registry.object? type = some object →
        (object.members.map Member.name).Nodup →
        ((change object).members.map Member.name).Nodup) :
    (registry.modifyObject type change).Canonical := by
  refine ⟨?_, ?_, ?_, ?_⟩
  · unfold Registry.modifyObject
    split <;> exact canonical.entered
  · rw [shapes_modifyObject]
    exact canonical.ordered
  · intro id
    have size : (registry.modifyObject type change).objects.size = registry.objects.size := by
      unfold Registry.modifyObject
      split <;> simp
    simp only [size, canonical.objects, shape?, shapes_modifyObject]
  · intro object isMember
    obtain ⟨index, found⟩ := Array.mem_iff_getElem?.mp isMember
    by_cases same : registry.objectId? type = some ⟨index⟩
    · rw [objects_modifyObject same, Array.getElem?_modify, if_pos rfl] at found
      obtain ⟨old, isOld, rfl⟩ := Option.map_eq_some_iff.mp found
      exact names old (by simp [object?, same, isOld])
        (canonical.names old (Array.mem_of_getElem? isOld))
    · rw [getElem?_modifyObject_of_ne same] at found
      exact canonical.names object (Array.mem_of_getElem? found)

theorem addMember (type : TypeId) (member : Member) :
    (registry.addMember type member).2.Canonical := by
  unfold Registry.addMember
  split
  · exact canonical
  · next found isFound =>
      split
      · exact canonical
      · next isNew =>
          refine canonical.modifyObject fun object isObject names => ?_
          obtain rfl := Option.some.inj (isFound.symm.trans isObject)
          have absent : member.name ∉ found.members.map Member.name := by
            simpa [ObjectType.member?] using isNew
          simpa [List.nodup_append, names] using absent

end Canonical

/--
A registry keeps its rows and its object types while others come after them. An
object type only gets members, and these come after its own.
-/
structure Extends (added : ObjectId → List String) (registry larger : Registry) : Prop where
  rows : registry.shapes.toList <+: larger.shapes.toList
  objects :
    ∀ (id : ObjectId) object,
      registry.objects[id.index]? = some object →
      ∃ grown,
        larger.objects[id.index]? = some grown ∧ grown.name = object.name ∧
          grown.kind = object.kind ∧
          grown.members.map Member.name = object.members.map Member.name ++ added id

namespace Extends

variable {added more : ObjectId → List String} {change : ObjectType → ObjectType}

theorem refl (registry : Registry) : Extends (fun _ => []) registry registry :=
  ⟨List.prefix_rfl, fun _ object found => ⟨object, found, by simp⟩⟩

theorem trans {middle : Registry} (first : Extends added registry middle)
    (second : Extends more middle larger) :
    Extends (fun id => added id ++ more id) registry larger := by
  refine ⟨first.rows.trans second.rows, fun id object found => ?_⟩
  obtain ⟨grown, isGrown, name, kind, names⟩ := first.objects id object found
  obtain ⟨last, isLast, lastName, lastKind, lastNames⟩ := second.objects id grown isGrown
  exact ⟨last, isLast, lastName.trans name, lastKind.trans kind,
    by rw [lastNames, names, List.append_assoc]⟩

theorem intern (registry : Registry) (shape : Shape) :
    Extends (fun _ => []) registry (registry.intern shape).2 := by
  refine ⟨registry.prefix_intern shape, ?_⟩
  rw [objects_intern]
  exact (refl registry).objects

theorem declareObject (registry : Registry) (name : String) (kind : ObjectKind) :
    Extends (fun _ => []) registry (registry.declareObject name kind).2 := by
  refine ⟨?_, fun id object found => ⟨object, ?_, by simp⟩⟩
  · exact prefix_intern { registry with objects := registry.objects.push _ } _
  · have inside := (Array.getElem?_eq_some_iff.mp found).1
    rw [Registry.declareObject, objects_intern, Array.getElem?_push_lt inside,
      ← Array.getElem?_eq_getElem inside, found]

theorem modifyObject {names : List String}
    (kept :
      ∀ object,
        (change object).name = object.name ∧ (change object).kind = object.kind ∧
          (change object).members.map Member.name = object.members.map Member.name ++ names) :
    Extends (fun id => if registry.objectId? type = some id then names else []) registry
      (registry.modifyObject type change) := by
  refine ⟨by simp [shapes_modifyObject], fun id object found => ?_⟩
  by_cases isId : registry.objectId? type = some id
  · refine ⟨change object, ?_, by simpa [isId] using kept object⟩
    simp [objects_modifyObject isId, Array.getElem?_modify, found]
  · exact ⟨object, by rw [getElem?_modifyObject_of_ne isId, found], by simp [isId]⟩

theorem modifyObject_of_names
    (kept :
      ∀ object,
        (change object).name = object.name ∧ (change object).kind = object.kind ∧
          (change object).members.map Member.name = object.members.map Member.name) :
    Extends (fun _ => []) registry (registry.modifyObject type change) := by
  have plain := @modifyObject registry type change [] (by simpa using kept)
  simpa using plain

theorem addMember (registry : Registry) (type : TypeId) (member : Member) :
    Extends (fun id => (Operation.addMember type member).added registry id) registry
      (registry.addMember type member).2 := by
  unfold Operation.added
  cases isObject : registry.object? type with
  | none => simpa [Registry.addMember, isObject] using refl registry
  | some object =>
    by_cases taken : (object.member? member.name).isSome
    · simpa [Registry.addMember, isObject, taken] using refl registry
    · simp only [Registry.addMember, isObject, taken, Bool.false_eq_true, if_false, and_true]
      exact modifyObject (by simp)

end Extends

namespace Operation

theorem canonical_run (canonical : registry.Canonical) (operation : Operation)
    (inside : ∀ type ∈ operation.types, type.index < registry.size) :
    (operation.run registry).2.Canonical := by
  cases operation with
  | function parameters result => exact canonical.intern inside nofun
  | typeNameOf denoted => exact canonical.intern inside nofun
  | declareObject name kind => exact canonical.declareObject name kind
  | addMember type member => exact canonical.addMember type member
  | setMemberType type name memberType =>
    refine canonical.modifyObject fun object _ names => ?_
    rwa [names_setMemberType]
  | setConstructor type parameters => exact canonical.modifyObject fun _ _ names => names

theorem extends_run (registry : Registry) (operation : Operation) :
    Extends (fun id => operation.added registry id) registry (operation.run registry).2 := by
  cases operation with
  | function parameters result => exact .intern registry _
  | typeNameOf denoted => exact .intern registry _
  | declareObject name kind => exact .declareObject registry name kind
  | addMember type member => exact .addMember registry type member
  | setMemberType type name memberType =>
    exact .modifyObject_of_names fun object => ⟨rfl, rfl, names_setMemberType⟩
  | setConstructor type parameters => exact .modifyObject_of_names fun _ => ⟨rfl, rfl, rfl⟩

theorem index_lt_of_run {operation : Operation}
    (answered : (operation.run registry).1 = some type) :
    type.index < (operation.run registry).2.size := by
  have made (registry : Registry) (shape : Shape) :
      (registry.intern shape).1.index < (registry.intern shape).2.size :=
    (Array.getElem?_eq_some_iff.mp (registry.shape?_intern shape)).1
  cases operation with
  | function parameters result =>
    obtain rfl := Option.some.inj answered
    exact made registry _
  | typeNameOf denoted =>
    obtain rfl := Option.some.inj answered
    exact made registry _
  | declareObject name kind =>
    obtain rfl := Option.some.inj answered
    exact made _ _
  | _ => exact absurd answered (by simp [run])

end Operation

namespace History

variable {history : History}

structure Coherent (history : History) : Prop where
  canonical : history.registry.Canonical
  inside : ∀ type ∈ history.returned, type.index < history.registry.size

theorem coherent_fresh : fresh.Coherent := by
  refine ⟨⟨rfl, ordered_of_forall (by decide), fun id => iff_of_false (Nat.not_lt_zero _) ?_,
    by decide⟩, by decide⟩
  rintro ⟨type, found⟩
  exact absurd (Array.mem_of_getElem? found) (by simp [fresh, shapes_initial])

theorem Coherent.after (coherent : history.Coherent) {operation : Operation}
    (allowed : ∀ type ∈ operation.types, type ∈ history.returned) :
    (history.after operation).Coherent := by
  refine ⟨operation.canonical_run coherent.canonical fun type given =>
    coherent.inside type (allowed type given), fun type isReturned => ?_⟩
  rcases List.mem_append.mp isReturned with answered | old
  · exact Operation.index_lt_of_run (Option.mem_toList.mp answered)
  · have rows := (operation.extends_run history.registry).rows.length_le
    exact Nat.lt_of_lt_of_le (coherent.inside type old) rows

theorem Coherent.run (coherent : history.Coherent) {operations : List Operation}
    (allowed : history.Allows operations) : (history.run operations).Coherent := by
  induction operations generalizing history with
  | nil => exact coherent
  | cons operation rest ih => exact ih (coherent.after allowed.1) allowed.2

theorem extends_run (history : History) (operations : List Operation) :
    Extends (fun id => history.added id operations) history.registry
      (history.run operations).registry := by
  induction operations generalizing history with
  | nil => exact .refl history.registry
  | cons operation rest ih =>
    exact (operation.extends_run history.registry).trans (ih (history.after operation))

theorem Allows.left {past future : List Operation} (allowed : history.Allows (past ++ future)) :
    history.Allows past := by
  induction past generalizing history with
  | nil => trivial
  | cons operation rest ih => exact ⟨allowed.1, ih allowed.2⟩

end History

theorem addMember_of_false {member : Member}
    (refused : (registry.addMember type member).1 = false) :
    (registry.addMember type member).2 = registry := by
  unfold addMember at refused ⊢
  split
  · rfl
  · split
    · rfl
    · simp_all

theorem modifyObject_of_object?_eq_none {change : ObjectType → ObjectType}
    (noObject : registry.object? type = none) : registry.modifyObject type change = registry := by
  unfold modifyObject
  split
  · next id isId =>
      have outside : registry.objects[id.index]? = none := by simpa [object?, isId] using noObject
      have unchanged : registry.objects.modify id.index change = registry.objects := by
        refine Array.ext_getElem? fun index => ?_
        rw [Array.getElem?_modify]
        split
        · next same => simp [← same, outside]
        · rfl
      rw [unchanged]
  · rfl

/--
Whatever is done with a fresh registry, its map and its rows are inverse to each
other, each object has just one row, and a type keeps its shape. Types are equal
just when they are the same with all their parts written out, and their parts come
before them. An object type that is declared is new, its members have different
names in the order in which they were added, and what is refused changes nothing.
-/
theorem canonical_of_history {past future : List Operation}
    (allowed : History.fresh.Allows (past ++ future)) :
    let now := History.fresh.run past
    let later := now.run future
    (∀ shape type,
      (now.registry.cache.lookup shape = some type ↔ now.registry.shape? type = some shape) ∧
        ((shape, type) ∈ now.registry.cache ↔ now.registry.shape? type = some shape)) ∧
    now.registry.cache.length = now.registry.size ∧
    (∀ id : ObjectId,
      id.index < now.registry.objects.size ↔
        ∃! type, now.registry.shape? type = some (.object id)) ∧
    (∀ type shape,
      now.registry.shape? type = some shape → later.registry.shape? type = some shape) ∧
    (∀ type ∈ now.returned, ∃ tree, now.registry.Unfolds type tree) ∧
    (∀ type other tree otherTree,
      now.registry.Unfolds type tree →
      now.registry.Unfolds other otherTree →
      (type = other ↔ tree = otherTree)) ∧
    (∀ type shape,
      now.registry.shape? type = some shape → ∀ part ∈ shape.parts, part.index < type.index) ∧
    (∀ type ∈ now.returned, ∃ text, now.registry.describe? type = some text) ∧
    (∀ name kind,
      (now.registry.declareObject name kind).1 ∉ now.returned ∧
        (now.registry.declareObject name kind).2.object?
          (now.registry.declareObject name kind).1 = some ⟨name, kind, [], none⟩) ∧
    (∀ object ∈ now.registry.objects, (object.members.map Member.name).Nodup) ∧
    (∀ id object,
      now.registry.objects[id.index]? = some object →
      ∃ grown,
        later.registry.objects[id.index]? = some grown ∧ grown.name = object.name ∧
          grown.kind = object.kind ∧
          grown.members.map Member.name =
            object.members.map Member.name ++ now.added id future) ∧
    (∀ type member,
      (now.registry.addMember type member).1 = false →
      (now.registry.addMember type member).2 = now.registry) ∧
    (∀ type,
      now.registry.object? type = none →
      (∀ member, (now.registry.addMember type member).1 = false) ∧
        (∀ name memberType, now.registry.setMemberType type name memberType = now.registry) ∧
        ∀ parameters, now.registry.setConstructor type parameters = now.registry) := by
  intro now later
  have coherent : now.Coherent := History.coherent_fresh.run allowed.left
  have canonical := coherent.canonical
  have kept := now.extends_run future
  refine ⟨fun shape type => ⟨now.registry.inverse shape type, canonical.mem_cache_iff⟩,
    canonical.length_cache, fun id => canonical.object_iff, fun _ _ => shape?_of_longer kept.rows,
    fun type isReturned => canonical.exists_unfolds (coherent.inside type isReturned),
    fun _ _ _ _ => canonical.unfolds_iff, canonical.ordered,
    fun type isReturned => canonical.exists_describe? (coherent.inside type isReturned),
    fun name kind => ⟨fun isReturned => ?_, ?_⟩, canonical.names, kept.objects,
    fun _ _ => addMember_of_false,
    fun type noObject => ⟨fun member => ?_, fun _ _ => ?_, fun _ => ?_⟩⟩
  · rw [canonical.declareObject_fst] at isReturned
    exact Nat.lt_irrefl _ (coherent.inside _ isReturned)
  · simp [Registry.declareObject, object?, objectId?, shape?_intern, objects_intern]
  · simp [addMember, noObject]
  · exact modifyObject_of_object?_eq_none noObject
  · exact modifyObject_of_object?_eq_none noObject

/-- A member of a class is refused, and another one gets the type of a later function. -/
theorem canonical_of_history_class :
    let past : List Operation :=
      [.declareObject "Point" .classInstance, .addMember ⟨5⟩ ⟨"x", some .number, true⟩,
        .addMember ⟨5⟩ ⟨"x", some .string, true⟩, .typeNameOf ⟨5⟩]
    let future : List Operation :=
      [.function [.number] ⟨5⟩, .addMember ⟨5⟩ ⟨"shift", none, false⟩,
        .setMemberType ⟨5⟩ "shift" ⟨7⟩]
    let now := History.fresh.run past
    History.fresh.Allows (past ++ future) ∧ now.added ⟨0⟩ future = ["shift"] ∧
      (∀ type ∈ now.returned, ∃ text, now.registry.describe? type = some text) := by
  intro past future now
  have allowed : History.fresh.Allows (past ++ future) := by decide +kernel
  exact ⟨allowed, by decide +kernel, (canonical_of_history allowed).2.2.2.2.2.2.2.1⟩

end Registry

end Toolshed
