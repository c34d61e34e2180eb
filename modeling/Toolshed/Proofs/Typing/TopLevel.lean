import Toolshed.Proofs.Typing.ModuleFrame

namespace Toolshed

/-!
# Names and types of declarations

When the names of a module are bound and no fault is noted, all of them are
different, and every class has an object type of its own.
-/

def Declaration.names (declaration : Declaration) : List String :=
  (Check.exported? declaration).toList.map Prod.fst

namespace Context

variable {context next : Context} {name : String} {binding : Binding}

/-- The innermost scope with more entries at its end. -/
def extend (context : Context) (entries : List (String × Binding)) : Context :=
  ⟨⟨context.innermost.kind, context.innermost.bindings ++ entries⟩, context.outer⟩

def names (context : Context) : List String :=
  context.innermost.bindings.map Prod.fst

theorem extend_nil (context : Context) : context.extend [] = context := by
  simp [extend]

theorem extend_append (context : Context) (first second : List (String × Binding)) :
    (context.extend first).extend second = context.extend (first ++ second) := by
  simp [extend]

theorem names_extend (context : Context) (entries : List (String × Binding)) :
    (context.extend entries).names = context.names ++ entries.map Prod.fst := by
  simp [extend, names]

theorem define_eq_true_iff :
    context.define name binding = (true, next) ↔
      name ∉ context.names ∧ next = context.extend [(name, binding)] := by
  have has : context.definedLocally name = true ↔ name ∈ context.names := Scope.has_iff
  unfold define
  split
  · next bound => simp [has.mp bound]
  · next free =>
      have absent : name ∉ context.names := fun member => free (has.mpr member)
      simp [absent, extend, eq_comm]

theorem nodup_extend (nodup : context.names.Nodup) (free : name ∉ context.names) :
    (context.extend [(name, binding)]).names.Nodup := by
  rw [names_extend]
  refine List.nodup_append.mpr ⟨nodup, List.nodup_singleton _, ?_⟩
  intro other member bound isBound same
  rw [List.map_cons, List.map_nil, List.mem_singleton] at isBound
  rw [same, isBound] at member
  exact free member

theorem get?_of_mem (nodup : context.names.Nodup)
    (member : (name, binding) ∈ context.innermost.bindings) :
    context.innermost.get? name = some binding := by
  unfold Scope.get?
  unfold names at nodup
  generalize context.innermost.bindings = bindings at nodup member
  induction bindings with
  | nil => simp at member
  | cons first rest ih =>
    obtain ⟨bound, found⟩ := first
    simp only [List.map_cons, List.nodup_cons] at nodup
    rcases List.mem_cons.mp member with same | deeper
    · obtain ⟨rfl, rfl⟩ := (Prod.mk.injEq _ _ _ _).mp same
      simp
    · have different : name ≠ bound := by
        rintro rfl
        exact nodup.1 (List.mem_map_of_mem deeper)
      simpa [List.lookup_cons, beq_eq_false_iff_ne.mpr different] using
        ih nodup.2 deeper

end Context

def Import.entry (interfaces : Interfaces) (entry : Import) : String × Binding :=
  (entry.bindingName,
    ⟨some ((interfaces.lookup entry.path).getD .unknown), .imported entry.path, none⟩)

namespace Check

variable {allowed : String → Prop} {ids : List NodeId} {state : CheckState}
variable {id : NodeId} {declarations : List Declaration} {base : Nat} {before after : CheckState}
variable {entry : String × Binding}

theorem yields_declareImports {interfaces : Interfaces} {imports : List Import} :
    Yields Context.Widens (imports.map Import.id) [] (declareImports interfaces imports)
      fun context _ last _ =>
        context.names.Nodup →
        last = context.extend (imports.map (Import.entry interfaces)) ∧ last.names.Nodup := by
  induction imports with
  | nil => exact .pure fun context _ nodup => ⟨context.extend_nil.symm, nodup⟩
  | cons first rest ih =>
    refine .bind yields_declare fun _ context => ih.imp ?_
    intro middle _ last _ later defined nodup
    obtain ⟨free, bound⟩ := Context.define_eq_true_iff.mp defined
    obtain ⟨isContext, isNodup⟩ := later (bound ▸ Context.nodup_extend nodup free)
    refine ⟨?_, isNodup⟩
    rw [isContext, bound, Context.extend_append]
    rfl

structure Apart (base : Nat) (state : CheckState) : Prop where
  objects :
    ∀ id selfType,
      state.classes.get? id = some selfType →
      ∃ object,
        state.registry.objectId? selfType = some object ∧
          base ≤ object.index ∧
          object.index < state.registry.objects.size
  distinct :
    ∀ id other object,
      state.classObject? id = some object →
      state.classObject? other = some object →
      id = other

def Names (state : CheckState) : Declaration → String × Binding → Prop
  | .value id mutable name _ _, entry =>
    entry = (name, ⟨none, .declared (.ofMutable mutable), some id⟩)
  | .function id name _ _ _, entry =>
    entry = (name, ⟨none, .declared .function, some id⟩)
  | .classType id name _ _, entry =>
    ∃ selfType nameType,
      entry = (name, ⟨some nameType, .declared .classType, some id⟩) ∧
        state.registry.shape? nameType = some (.typeName selfType) ∧
        state.classes.get? id = some selfType ∧
        state.registry.object? selfType = some ⟨name, .classInstance, [], none⟩
  | .stray _, _ => False

theorem run_declareTop (id : NodeId) (name : String) (type : Option TypeId) (kind : DeclaredKind)
    (state : CheckState) :
    stateAfter (declareTop id name type kind) state =
      stateAfter
        (if (state.context.define name ⟨type, .declared kind, some id⟩).1 then
          modify fun state => { state with declared := id :: state.declared }
        else
          report (.duplicateName name) id)
        { state with context := (state.context.define name ⟨type, .declared kind, some id⟩).2 } :=
  rfl

theorem declareTop_free {name : String} {type : Option TypeId} {kind : DeclaredKind}
    (different : state.context.names.Nodup)
    (silent : (stateAfter (declareTop id name type kind) state).diagnostics = []) :
    (stateAfter (declareTop id name type kind) state).context.names.Nodup ∧
      stateAfter (declareTop id name type kind) state =
        { state with
          context := state.context.extend [(name, ⟨type, .declared kind, some id⟩)]
          declared := id :: state.declared } := by
  rw [run_declareTop] at silent ⊢
  split at silent
  · next free =>
      obtain ⟨isFree, defined⟩ : name ∉ state.context.names ∧
          (state.context.define name ⟨type, .declared kind, some id⟩).2 = _ :=
        Context.define_eq_true_iff.mp (Prod.ext free rfl)
      rw [if_pos free, defined]
      exact ⟨Context.nodup_extend different isFree, rfl⟩
  · exact absurd silent (List.append_ne_nil_of_right_ne_nil _ (List.cons_ne_nil _ _))

theorem newClass_spec (id : NodeId) (name : String) (state : CheckState) :
    ∃ selfType registry,
      stateAfter (newClass id name) state =
          { state with registry := registry, classes := state.classes.insert id selfType } ∧
        state.registry.shapes.toList <+: registry.shapes.toList ∧
        registry.objects =
          state.registry.objects.push ⟨name, .classInstance, [], none⟩ ∧
        registry.objectId? selfType = some ⟨state.registry.objects.size⟩ ∧
        registry.shape? (answer (newClass id name) state) = some (.typeName selfType) := by
  let declared : Registry :=
    { state.registry with objects := state.registry.objects.push ⟨name, .classInstance, [], none⟩ }
  let shape : Shape := .object ⟨state.registry.objects.size⟩
  have first := declared.prefix_intern shape
  have second := (declared.intern shape).2.prefix_intern (.typeName (declared.intern shape).1)
  refine ⟨(declared.intern shape).1,
    ((declared.intern shape).2.intern (.typeName (declared.intern shape).1)).2, rfl,
    first.trans second, ?_, ?_, Registry.shape?_intern _ _⟩
  · rw [Registry.objects_intern, Registry.objects_intern]
  · refine Registry.objectId?_of_longer second ?_
    simp [Registry.objectId?, Registry.shape?_intern, shape]

theorem stateAfter_declareTop (id : NodeId) (name : String) (type : Option TypeId)
    (kind : DeclaredKind) (state : CheckState) :
    (stateAfter (declareTop id name type kind) state).classes = state.classes ∧
      (stateAfter (declareTop id name type kind) state).registry = state.registry := by
  rw [run_declareTop]
  split <;> exact ⟨rfl, rfl⟩

theorem classes_declareNames (fresh : id ∉ Declaration.idsOfAll declarations) (state : CheckState) :
    (stateAfter (declareNames declarations) state).classes.get? id = state.classes.get? id := by
  induction declarations generalizing state with
  | nil => rfl
  | cons first rest ih =>
    simp only [Declaration.idsOfAll, List.mem_append, not_or] at fresh
    cases first with
    | stray node => exact ih fresh.2 state
    | value node mutable name written initial =>
      have later := ih fresh.2
        (stateAfter (declareTop node name none (.ofMutable mutable)) state)
      rwa [(stateAfter_declareTop _ _ _ _ _).1] at later
    | function node name parameters result body =>
      have later := ih fresh.2
        (stateAfter (declareTop node name none .function) state)
      rwa [(stateAfter_declareTop _ _ _ _ _).1] at later
    | classType node name parameters members =>
      obtain ⟨selfType, registry, created, _⟩ := newClass_spec node name state
      have later := ih fresh.2
        (stateAfter (declareTop node name (some (answer (newClass node name) state)) .classType)
          (stateAfter (newClass node name) state))
      rw [(stateAfter_declareTop _ _ _ _ _).1, created, Table.get?_insert, if_neg] at later
      · rw [← created] at later
        exact later
      · rintro rfl
        simp [Declaration.ids] at fresh

theorem Apart.of_same (apart : Apart base before) (classes : after.classes = before.classes)
    (rows : before.registry.shapes.toList <+: after.registry.shapes.toList)
    (size : before.registry.objects.size ≤ after.registry.objects.size) : Apart base after := by
  have known : ∀ id object,
      after.classObject? id = some object → before.classObject? id = some object := by
    intro id object found
    obtain ⟨selfType, isClass, isObject⟩ := Option.bind_eq_some_iff.mp found
    rw [classes] at isClass
    obtain ⟨old, isOld, _⟩ := apart.objects id selfType isClass
    rw [Registry.objectId?_of_longer rows isOld] at isObject
    simp [CheckState.classObject?, isClass, isOld, isObject]
  refine ⟨?_, ?_⟩
  · intro id selfType isClass
    obtain ⟨object, isObject, newer, inside⟩ := apart.objects id selfType (classes ▸ isClass)
    exact ⟨object, Registry.objectId?_of_longer rows isObject, newer,
      Nat.lt_of_lt_of_le inside size⟩
  · intro id other object first second
    exact apart.distinct id other object (known _ _ first) (known _ _ second)

theorem Progress.apart {base : Nat} {before after : CheckState}
    (progress : Progress ids before after) (apart : Apart base before) : Apart base after :=
  apart.of_same progress.classes progress.shapes (Nat.le_of_eq progress.size.symm)

theorem apart_newClass (id : NodeId) (name : String) (apart : Apart base state)
    (newer : base ≤ state.registry.objects.size) :
    Apart base (stateAfter (newClass id name) state) := by
  obtain ⟨selfType, registry, created, rows, objects, isObject, _⟩ := newClass_spec id name state
  have size : registry.objects.size = state.registry.objects.size + 1 := by simp [objects]
  have kept : Apart base { state with registry := registry } :=
    apart.of_same rfl rows (by simp [size])
  rw [created]
  have cases : ∀ other found,
      (state.classes.insert id selfType).get? other = some found →
      (other = id ∧ found = selfType) ∨ (other ≠ id ∧ state.classes.get? other = some found) := by
    intro other found isClass
    rw [Table.get?_insert] at isClass
    split at isClass
    · next same => exact .inl ⟨same, (Option.some.inj isClass).symm⟩
    · next different => exact .inr ⟨different, isClass⟩
  have older : ∀ other found,
      state.classes.get? other = some found →
      registry.objectId? found ≠ some ⟨state.registry.objects.size⟩ := by
    intro other found isClass same
    obtain ⟨object, isOld, _, inside⟩ := apart.objects other found isClass
    rw [Registry.objectId?_of_longer rows isOld] at same
    obtain rfl := Option.some.inj same
    exact Nat.lt_irrefl _ inside
  refine ⟨?_, ?_⟩
  · intro other found isClass
    rcases cases other found isClass with ⟨rfl, rfl⟩ | ⟨_, old⟩
    · exact ⟨_, isObject, newer, by simp [size]⟩
    · exact kept.objects other found old
  · intro first second object isFirst isSecond
    obtain ⟨firstType, firstClass, firstObject⟩ := Option.bind_eq_some_iff.mp isFirst
    obtain ⟨secondType, secondClass, secondObject⟩ := Option.bind_eq_some_iff.mp isSecond
    rcases cases first firstType firstClass with ⟨rfl, rfl⟩ | ⟨_, firstOld⟩
    · rcases cases second secondType secondClass with ⟨rfl, _⟩ | ⟨_, secondOld⟩
      · rfl
      · have same := isObject.symm.trans firstObject
        exact absurd (same ▸ secondObject) (older second secondType secondOld)
    · rcases cases second secondType secondClass with ⟨rfl, rfl⟩ | ⟨_, secondOld⟩
      · have same := isObject.symm.trans secondObject
        exact absurd (same ▸ firstObject) (older first firstType firstOld)
      · refine kept.distinct first second object ?_ ?_
        · simp [CheckState.classObject?, firstOld, firstObject]
        · simp [CheckState.classObject?, secondOld, secondObject]

theorem apart_declareNames (declarations : List Declaration) (apart : Apart base state)
    (newer : base ≤ state.registry.objects.size) :
    Apart base (stateAfter (declareNames declarations) state) := by
  have declared : ∀ {state : CheckState} id name type kind,
      Apart base state →
      base ≤ state.registry.objects.size →
      Apart base (stateAfter (declareTop id name type kind) state) ∧
        base ≤ (stateAfter (declareTop id name type kind) state).registry.objects.size := by
    intro state id name type kind apart newer
    obtain ⟨classes, registry⟩ := stateAfter_declareTop id name type kind state
    refine ⟨apart.of_same classes ?_ (Nat.le_of_eq (by rw [registry])), by rwa [registry]⟩
    simp [registry]
  induction declarations generalizing state with
  | nil => exact apart
  | cons first rest ih =>
    cases first with
    | stray id => exact ih apart newer
    | value id mutable name written initial =>
      have next := declared id name none (.ofMutable mutable) apart newer
      exact ih next.1 next.2
    | function id name parameters result body =>
      have next := declared id name none .function apart newer
      exact ih next.1 next.2
    | classType id name parameters members =>
      have created := apart_newClass id name apart newer
      have larger : base ≤ (stateAfter (newClass id name) state).registry.objects.size := by
        obtain ⟨selfType, registry, same, _, objects, _⟩ := newClass_spec id name state
        rw [same]
        simp only [objects, Array.size_push]
        omega
      have next := declared id name (some (answer (newClass id name) state)) .classType
        created larger
      exact ih next.1 next.2

theorem Names.mono {declaration : Declaration} (names : Names before declaration entry)
    (classes : after.classes.get? declaration.id = before.classes.get? declaration.id)
    (rows : before.registry.shapes.toList <+: after.registry.shapes.toList)
    (objects : before.registry.objects.toList <+: after.registry.objects.toList) :
    Names after declaration entry := by
  cases declaration with
  | value id mutable name written initial => exact names
  | function id name parameters result body => exact names
  | stray id => exact names
  | classType id name parameters members =>
    obtain ⟨selfType, nameType, isEntry, shape, isClass, isObject⟩ := names
    exact ⟨selfType, nameType, isEntry, Registry.shape?_of_longer rows shape,
      classes.trans isClass, Registry.object?_of_longer rows objects isObject⟩

structure NamesBound
    (before : CheckState)
    (declarations : List Declaration)
    (after : CheckState) : Prop where
  nodup : after.context.names.Nodup
  entries :
    ∃ entries,
      after.context = before.context.extend entries ∧
        List.Forall₂ (Names after) declarations entries
  kept : ∀ id ∈ before.declared, id ∈ after.declared
  declared : ∀ declaration ∈ declarations, declaration.id ∈ after.declared

theorem NamesBound.cons {middle : CheckState} {first : Declaration} {rest : List Declaration}
    (context : middle.context = before.context.extend [entry])
    (declared : middle.declared = first.id :: before.declared) (names : Names after first entry)
    (later : NamesBound middle rest after) : NamesBound before (first :: rest) after := by
  obtain ⟨entries, isContext, isBound⟩ := later.entries
  refine ⟨later.nodup, ⟨entry :: entries, ?_, .cons names isBound⟩, ?_, ?_⟩
  · rw [isContext, context, Context.extend_append]
    rfl
  · exact fun id member => later.kept id (declared ▸ List.mem_cons_of_mem _ member)
  · intro declaration member
    rcases List.mem_cons.mp member with rfl | inRest
    · exact later.kept _ (declared ▸ List.mem_cons_self)
    · exact later.declared declaration inRest

theorem namesBound_declareNames (clean : CleanDeclarations allowed declarations)
    (nodup : (Declaration.idsOfAll declarations).Nodup) (different : state.context.names.Nodup)
    (silent : (stateAfter (declareNames declarations) state).diagnostics = []) :
    NamesBound state declarations (stateAfter (declareNames declarations) state) := by
  induction declarations generalizing state with
  | nil => exact ⟨different, ⟨[], (Context.extend_nil _).symm, .nil⟩, fun _ => id, by simp⟩
  | cons first rest ih =>
    simp only [List.forall_mem_cons] at clean
    simp only [Declaration.idsOfAll] at nodup
    have later : Adds (Declaration.idsOfAll rest) (declareNames rest) :=
      adds_declareNames (List.Subset.refl _)
    cases first with
    | stray id => exact absurd clean.1 (by simp [Declaration.Clean])
    | value id mutable name written initial =>
      obtain ⟨stillDifferent, bound⟩ := declareTop_free different ((later _).silent silent)
      exact (ih clean.2 (by grind) stillDifferent silent).cons (by rw [bound])
        (by rw [bound]; rfl) rfl
    | function id name parameters result body =>
      obtain ⟨stillDifferent, bound⟩ := declareTop_free different ((later _).silent silent)
      exact (ih clean.2 (by grind) stillDifferent silent).cons (by rw [bound])
        (by rw [bound]; rfl) rfl
    | classType id name parameters members =>
      obtain ⟨selfType, registry, created, _, objects, isObject, shape⟩ :=
        newClass_spec id name state
      obtain ⟨middle, isMiddle⟩ : ∃ middle, middle = stateAfter
          (declareTop id name (some (answer (newClass id name) state)) .classType)
          (stateAfter (newClass id name) state) := ⟨_, rfl⟩
      have run : stateAfter (declareNames (.classType id name parameters members :: rest)) state =
          stateAfter (declareNames rest) middle := by
        rw [isMiddle]
        rfl
      rw [run] at silent ⊢
      rw [created] at isMiddle
      have silentMiddle := (later middle).silent silent
      rw [isMiddle] at silentMiddle
      obtain ⟨stillDifferent, bound⟩ := declareTop_free (by exact different) silentMiddle
      rw [← isMiddle] at stillDifferent bound
      -- The class is known as soon as its name is bound, and stays so.
      have names : Names middle (.classType id name parameters members)
          (name, ⟨some (answer (newClass id name) state), .declared .classType, some id⟩) := by
        rw [bound]
        refine ⟨selfType, _, rfl, shape, by simp [Table.get?_insert], ?_⟩
        simp [Registry.object?, isObject, objects]
      refine (ih clean.2 (by grind) stillDifferent silent).cons (by rw [bound]) (by rw [bound]; rfl)
        (names.mono (classes_declareNames ?_ _) (later _).shapes (later _).objects)
      have fresh : id ∈ (Declaration.classType id name parameters members).ids := by
        simp [Declaration.ids]
      grind [Declaration.id]

end Check

end Toolshed
