import Toolshed.Proofs.Typing.CheckedModule
import Toolshed.Proofs.Typing.Clear

namespace Toolshed

/-!
# Members with a type

In a module without faults every name that is exported has a type, and so has
every member of a class and of the interface.
-/

variable {final : CheckState} {whole : Context} {declaration : Declaration}

theorem Declaration.Typed.bound (typed : declaration.Typed final whole) {entry : String × Bool}
    (exported : Check.exported? declaration = some entry) :
    ∃ type, (whole.lookup entry.1).bind Binding.type = some type := by
  have found : ∀ name binding type, whole.innermost.get? name = some binding →
      binding.type = some type → (whole.lookup name).bind Binding.type = some type := by
    intro name binding type isBound isType
    simp [Context.lookup, Context.scopes, isBound, isType]
  cases declaration with
  | value id mutable name written initial =>
    obtain rfl := Option.some.inj exported
    obtain ⟨type, isBound, _⟩ := typed
    exact ⟨type, found _ _ type isBound rfl⟩
  | function id name parameters result body =>
    obtain rfl := Option.some.inj exported
    obtain ⟨type, isBound, _⟩ := typed
    exact ⟨type, found _ _ type isBound rfl⟩
  | classType id name parameters members =>
    obtain rfl := Option.some.inj exported
    obtain ⟨type, _, _, isBound, _⟩ := typed
    exact ⟨type, found _ _ type isBound rfl⟩
  | stray id => exact typed.elim

theorem TypedEntry.type_ne_none {entry : Member}
    (typed : TypedEntry final whole declaration entry) : entry.type ≠ none := by
  cases declaration with
  | value id mutable name written initial =>
    obtain ⟨type, rfl, _⟩ := typed
    simp
  | function id name parameters result body =>
    obtain ⟨type, rfl, _⟩ := typed
    simp
  | classType id name parameters members => exact typed.elim
  | stray id => exact typed.elim

namespace Check

variable {state : CheckState} {allowed : String → Prop} {declarations members : List Declaration}
variable {owner : TypeId} {parameters : List Parameter} {first : Nat}
variable {object : ObjectType} {path : ModulePath}

theorem owned_declareNames (nodup : (Declaration.idsOfAll declarations).Nodup)
    (state : CheckState) {index : Nat} (newer : state.registry.objects.size ≤ index)
    (inside : index < (stateAfter (declareNames declarations) state).registry.objects.size) :
    ∃ id name parameters members,
      Declaration.classType id name parameters members ∈ declarations ∧
        (stateAfter (declareNames declarations) state).classObject? id = some ⟨index⟩ := by
  induction declarations generalizing state with
  | nil => exact absurd inside (Nat.not_lt.mpr newer)
  | cons first rest ih =>
    simp only [Declaration.idsOfAll, List.nodup_append] at nodup
    have later : ∀ middle : CheckState,
        middle.registry.objects.size ≤ index →
        index < (stateAfter (declareNames rest) middle).registry.objects.size →
        ∃ id name parameters members,
          Declaration.classType id name parameters members ∈ first :: rest ∧
            (stateAfter (declareNames rest) middle).classObject? id = some ⟨index⟩ := by
      intro middle newer inside
      obtain ⟨id, name, parameters, members, isThere, isObject⟩ :=
        ih nodup.2.1 middle newer inside
      exact ⟨id, name, parameters, members, List.mem_cons_of_mem _ isThere, isObject⟩
    cases first with
    | stray id => exact later state newer inside
    | value id mutable name written initial =>
      refine later (stateAfter (declareTop id name none (.ofMutable mutable)) state) ?_ inside
      rwa [(stateAfter_declareTop ..).2]
    | function id name parameters result body =>
      refine later (stateAfter (declareTop id name none .function) state) ?_ inside
      rwa [(stateAfter_declareTop ..).2]
    | classType id name parameters members =>
      obtain ⟨selfType, registry, created, _, objects, isObject, _⟩ :=
        newClass_spec id name state
      let named := stateAfter
        (declareTop id name (some (answer (newClass id name) state)) .classType)
        (stateAfter (newClass id name) state)
      have sameRegistry : named.registry = registry := by
        simp only [named, (stateAfter_declareTop ..).2, created]
      have isClass : named.classes.get? id = some selfType := by
        simp only [named, (stateAfter_declareTop ..).1, created]
        simp [Table.get?_insert]
      rcases Nat.eq_or_lt_of_le newer with rfl | isLater
      · refine ⟨id, name, parameters, members, List.mem_cons_self, ?_⟩
        have fresh : id ∉ Declaration.idsOfAll rest := fun isThere =>
          nodup.2.2 id (by simp [Declaration.ids]) id isThere rfl
        have adds : Additive (Declaration.idsOfAll rest) named
            (stateAfter (declareNames rest) named) :=
          adds_declareNames (List.Subset.refl _) named
        show (stateAfter (declareNames rest) named).classObject? id = _
        rw [CheckState.classObject?, classes_declareNames fresh, isClass]
        exact Registry.objectId?_of_longer adds.shapes (sameRegistry ▸ isObject)
      · refine later named ?_ inside
        rw [sameRegistry, objects, Array.size_push]
        exact isLater

theorem complete_addAll {registry : Registry} {members : List Member}
    (complete :
      ∀ (index : Nat) (object : ObjectType),
        first ≤ index → registry.objects[index]? = some object → object.Complete)
    (typed : ∀ member ∈ members, member.type ≠ none) :
    ∀ (index : Nat) (object : ObjectType),
      first ≤ index →
      (addAll registry owner members).objects[index]? = some object →
      object.Complete := by
  induction members generalizing registry with
  | nil => exact complete
  | cons member rest ih =>
    obtain ⟨typedFirst, typedRest⟩ := List.forall_mem_cons.mp typed
    refine ih (fun index object newer found => ?_) typedRest
    dsimp only at found
    unfold Registry.addMember at found
    split at found
    · exact complete index object newer found
    · next isObject =>
        split at found
        · exact complete index object newer found
        · obtain ⟨id, isId, _⟩ := Option.bind_eq_some_iff.mp isObject
          rw [Registry.objects_modifyObject isId, Array.getElem?_modify] at found
          split at found
          · obtain ⟨before, isBefore, rfl⟩ := Option.map_eq_some_iff.mp found
            intro other isOther
            rcases List.mem_append.mp isOther with isOld | isNew
            · exact complete index before newer isBefore other isOld
            · obtain rfl := List.mem_singleton.mp isNew
              exact typedFirst
          · exact complete index object newer found

theorem complete_interface
    (complete :
      ∀ (index : Nat) (object : ObjectType),
        first ≤ index → state.registry.objects[index]? = some object → object.Complete) :
    ∀ (index : Nat) (object : ObjectType),
      first ≤ index →
      (stateAfter (interface path declarations) state).registry.objects[index]? = some object →
      object.Complete := by
  rw [stateAfter_interface]
  refine complete_addAll ?_ ?_
  · intro index object newer found
    rw [Registry.declareObject, Registry.objects_intern, Array.getElem?_push] at found
    split at found
    · obtain rfl := Option.some.inj found
      simp [ObjectType.Complete]
    · exact complete index object newer found
  · intro member isMember
    obtain ⟨declaration, _, isExported⟩ := List.mem_filterMap.mp isMember
    unfold exportedMember? at isExported
    split at isExported
    · split at isExported
      · obtain rfl := Option.some.inj isExported
        simp
      · simp at isExported
    · simp at isExported

theorem ClassObject.complete
    (isClass : ClassObject final (TypedEntry final whole) parameters members object) :
    object.Complete := by
  obtain ⟨own, inner, types, isMembers, _, entries, _, ownTypes⟩ := isClass.entries
  intro member isMember missing
  rw [isMembers] at isMember
  rcases List.mem_append.mp isMember with isOwn | isInner
  · have isType : member.type ∈ own.map Member.type := List.mem_map_of_mem isOwn
    rw [ownTypes, missing] at isType
    simp at isType
  · clear isMember isMembers isClass
    induction entries with
    | nil => simp at isInner
    | cons isEntry _ ih =>
      rcases List.mem_cons.mp isInner with rfl | deeper
      · exact isEntry.type_ne_none missing
      · exact ih deeper

theorem Passes.complete {arena : Arena} {interfaces : Interfaces} {file : SourceFile}
    {start imported named typed valued bodied ordered finish : CheckState}
    (passes :
      Passes arena path interfaces file start imported named typed valued bodied ordered finish)
    (clean : file.Clean allowed) (found : Found interfaces file start valued) {index : Nat}
    (newer : start.registry.objects.size ≤ index)
    (isObject : ordered.registry.objects[index]? = some object) : object.Complete := by
  have passed := passes.passed clean
  have inside : index < named.registry.objects.size := by
    rw [← (passed.types.trans passed.values).size, ← passed.bodies.objects, ← passed.order.objects]
    exact (Array.getElem?_eq_some_iff.mp isObject).1
  rw [← passes.names] at inside
  rw [← passed.imports.objects] at newer
  obtain ⟨id, name, parameters, members, isThere, isClass⟩ :=
    owned_declareNames (List.nodup_append.mp clean.nodup).2.1 imported newer inside
  rw [passes.names] at isClass
  obtain ⟨_, selfType, other, _, _, isInstance, isOther, entries⟩ :=
    found.valued valued (.refl valued) _ isThere
  have sameClass := (passed.types.trans passed.values).classObject? isClass
  obtain ⟨number, isNumber, inObjects⟩ := Option.bind_eq_some_iff.mp isOther
  have sameNumber : number = ⟨index⟩ := by
    rw [CheckState.classObject?, isInstance] at sameClass
    exact Option.some.inj (isNumber.symm.trans sameClass)
  subst sameNumber
  rw [passed.order.objects, passed.bodies.objects, inObjects] at isObject
  obtain rfl := Option.some.inj isObject
  exact entries.complete

end Check

end Toolshed
