import Toolshed.Proofs.Typing.Values

namespace Toolshed

/-!
# Modules without faults

A module in which no fault is noted has one context in which all its code is
typed: every name of the module is bound there, and has a type.
-/

def FunctionAccepted
    (final : CheckState)
    (context : Context)
    (parameters : List Parameter)
    (result : Option TypeExpression)
    (body : Block) : Prop :=
  ∃ types resultType,
    SignatureDenotes final parameters result types resultType ∧
      body.Accepted final (context.enter parameters types (resultType.getD .unit)) ∧
      (resultType.getD .unit = .unit ∨ resultType.getD .unit = .unknown ∨ body.returns = true)

def Declaration.BodyAccepted (final : CheckState) (context : Context) : Declaration → Prop
  | .function _ _ parameters result body =>
    FunctionAccepted final context parameters result body
  | _ => True

namespace Declaration

def Typed (final : CheckState) (whole : Context) : Declaration → Prop
  | .value id mutable name written initial =>
    ∃ type,
      whole.innermost.get? name =
          some ⟨some type, .declared (.ofMutable mutable), some id⟩ ∧
        ValueTyped final whole written initial type
  | .function id name parameters result body =>
    ∃ type,
      whole.innermost.get? name = some ⟨some type, .declared .function, some id⟩ ∧
        FunctionTyped final parameters result type ∧
        FunctionAccepted final whole parameters result body
  | .classType id name parameters members =>
    ∃ nameType selfType object,
      whole.innermost.get? name = some ⟨some nameType, .declared .classType, some id⟩ ∧
        final.registry.shape? nameType = some (.typeName selfType) ∧
        final.registry.object? selfType = some object ∧
        Check.ClassObject final (TypedEntry final (whole.enterClass object)) parameters members
          object ∧
        ∀ member ∈ members, member.BodyAccepted final (whole.enterClass object)
  | .stray _ => False

def published? (whole : Context) (declaration : Declaration) : Option Member :=
  (Check.exported? declaration).map fun (name, mutable) =>
    ⟨name, some (((whole.lookup name).bind Binding.type).getD .unknown), mutable⟩

end Declaration

structure ModuleTyped
    (final : CheckState)
    (outside whole : Context)
    (interfaces : Interfaces)
    (file : SourceFile)
    (interface : TypeId) : Prop where
  outer : whole.outer = outside.scopes
  kind : whole.innermost.kind = .moduleBody
  names :
    whole.names =
      file.imports.map Import.bindingName ++ file.declarations.flatMap Declaration.names
  nodup : whole.names.Nodup
  imports :
    ∀ entry ∈ file.imports,
      whole.innermost.get? entry.bindingName = some (entry.entry interfaces).2
  declarations : ∀ declaration ∈ file.declarations, declaration.Typed final whole
  interface :
    ∃ object,
      final.registry.object? interface = some object ∧
        object.members = file.declarations.filterMap (Declaration.published? whole)

namespace Check

variable {allowed : String → Prop} {ids : List NodeId} {base : Nat}
variable {arena : Arena} {state after : CheckState} {classes : Table TypeId}

variable {owner : NodeId} {declarations : List Declaration}

theorem yields_function {id : NodeId} {name : String} {parameters : List Parameter}
    {result : Option TypeExpression} {body : Block}
    (clean : Declaration.Clean allowed (.function id name parameters result body)) :
    Yields Eq (Declaration.ids (.function id name parameters result body))
      (Declaration.ids (.function id name parameters result body))
      (inUnit owner
        (declaredFunction id parameters result body.returns (blockStatements arena body)))
      fun context _ _ final => FunctionAccepted final context parameters result body :=
  Yields.inUnit (.within (yields_declaredFunction clean.2.1
    (yields_blockStatements arena body clean.2.2)) (by grind [Declaration.ids]))

theorem yields_memberBodies {members : List Declaration}
    (clean : Declaration.CleanMembers allowed members) :
    Yields Eq (members.flatMap Declaration.bodyIds) (members.flatMap Declaration.bodyIds)
      (memberBodies arena owner members) fun context _ _ final =>
        ∀ member ∈ members, member.BodyAccepted final context := by
  induction members with
  | nil => exact .pure fun _ _ => by simp
  | cons first rest ih =>
    have later := ih clean.2
    cases first with
    | function id name parameters result body =>
      exact .next (yields_function clean.1.2) fun _ => later.imp fun _ _ _ _ accepted isFirst =>
        List.forall_mem_cons.mpr ⟨isFirst, accepted⟩
    | value id mutable name written initial =>
      exact later.imp fun _ _ _ _ accepted => List.forall_mem_cons.mpr ⟨trivial, accepted⟩
    | classType id name parameters inner =>
      exact absurd clean.1.1 (by simp [Declaration.isLocal])
    | stray id => exact absurd clean.1.1 (by simp [Declaration.isLocal])

theorem steady_inDeclaredClass {id : NodeId} {check : TypeId → Check Unit}
    (inner : ∀ selfType, Steady ids (check selfType)) :
    Steady ids (inDeclaredClass id check) := by
  refine .get fun state => ?_
  split
  · exact .pure
  · refine steady_inScope (.get fun _ => ?_)
    exact .bind (extends_bindMembers _) fun _ => .of_steady (inner _)

theorem steady_bodies (clean : CleanDeclarations allowed declarations)
    (inside : declarations.flatMap Declaration.topBodyIds ⊆ ids) :
    Steady ids (bodies arena declarations) := by
  induction declarations with
  | nil => exact Frames.pure
  | cons first rest ih =>
    simp only [List.flatMap_cons, List.append_subset] at inside
    simp only [List.forall_mem_cons] at clean
    have later := ih clean.2 inside.2
    cases first with
    | function id name parameters result body =>
      exact .bind ((yields_function clean.1).frames.mono inside.1) fun _ => later
    | classType id name parameters members =>
      refine .bind (steady_inDeclaredClass fun _ => ?_) fun _ => later
      exact (yields_memberBodies clean.1.2.2).frames.mono inside.1
    | value id mutable name written initial => exact later
    | stray id => exact later

def ClassesKnown (state : CheckState) (declarations : List Declaration) : Prop :=
  ∀ id name parameters members,
    Declaration.classType id name parameters members ∈ declarations →
    ∃ selfType object,
      state.classes.get? id = some selfType ∧
        state.registry.object? selfType = some object ∧
        (object.members.map Member.name).Nodup

theorem ClassesKnown.step (known : ClassesKnown state declarations) (step : Step ids state after) :
    ClassesKnown after declarations := by
  intro id name parameters members isThere
  obtain ⟨selfType, object, isClass, isObject, nodup⟩ := known id name parameters members isThere
  exact ⟨selfType, object, step.classes ▸ isClass, step.object? isObject, nodup⟩

def CodeAccepted (final state : CheckState) : Declaration → Prop
  | .classType id _ _ members =>
    ∀ selfType object,
      state.classes.get? id = some selfType →
      state.registry.object? selfType = some object →
      ∀ member ∈ members, member.BodyAccepted final (state.context.enterClass object)
  | declaration => declaration.BodyAccepted final state.context

theorem CodeAccepted.of_step {final : CheckState} {declaration : Declaration}
    (accepted : CodeAccepted final after declaration) (step : Step ids state after)
    (sameContext : state.context = after.context) : CodeAccepted final state declaration := by
  cases declaration with
  | classType id name parameters members =>
    intro selfType object isClass isObject
    rw [sameContext]
    exact accepted selfType object (step.classes ▸ isClass) (step.object? isObject)
  | function id name parameters result body =>
    show FunctionAccepted final state.context parameters result body
    rw [sameContext]
    exact accepted
  | value id mutable name written initial => trivial
  | stray id => trivial

theorem advances_bodies (clean : CleanDeclarations allowed declarations)
    (nodup : (declarations.flatMap Declaration.topBodyIds).Nodup) :
    Advances classes (declarations.flatMap Declaration.topBodyIds) (bodies arena declarations)
      fun state _ after =>
        ClassesKnown state declarations →
        ∀ final, Later (declarations.flatMap Declaration.topBodyIds) after final →
          ∀ declaration ∈ declarations, CodeAccepted final state declaration := by
  induction declarations with
  | nil => exact .pure fun _ _ _ _ => by simp
  | cons first rest ih =>
    simp only [List.forall_mem_cons] at clean
    -- The first declaration has been checked, and then the rest of them.
    have rests : Advances classes (rest.flatMap Declaration.topBodyIds) (bodies arena rest)
        fun middle _ after =>
          ∀ state : CheckState,
            ClassesKnown state (first :: rest) →
            Step first.topBodyIds state middle →
            state.context = middle.context →
            (∀ final, Later first.topBodyIds middle final → CodeAccepted final state first) →
            ∀ final, Later ((first :: rest).flatMap Declaration.topBodyIds) after final →
              ∀ declaration ∈ first :: rest, CodeAccepted final state declaration := by
      refine ((ih clean.2 (by grind)).framed (steady_bodies clean.2 (List.Subset.refl _))).imp ?_
      rintro middle _ after _ ⟨stepRest, _, found⟩ state known step sameContext isFirst final later
      have knownRest : ClassesKnown state rest := fun id name parameters members isThere =>
        known id name parameters members (List.mem_cons_of_mem _ isThere)
      refine List.forall_mem_cons.mpr ⟨isFirst final ?_, fun declaration member => ?_⟩
      · exact (later.mono (by simp)).before stepRest (by grind)
      · exact (found (knownRest.step step) final (later.mono (by simp)) declaration
          member).of_step step sameContext
    cases first with
    | stray id => exact absurd clean.1 (by simp [Declaration.Clean])
    | value id mutable name written initial =>
      refine rests.imp fun state _ after _ found known => ?_
      exact found state known (.refl _) rfl fun _ _ => trivial
    | function id name parameters result body =>
      refine .bind ((yields_function clean.1).advances (List.nodup_append.mp nodup).1) fun _ =>
        rests.imp ?_
      rintro middle _ after _ found state _ _ ⟨step, sameContext, accepted⟩ known
      exact found state known step sameContext accepted
    | classType id name parameters members =>
      have inner : Yields Eq (members.flatMap Declaration.bodyIds) _
          (memberBodies arena id members) _ :=
        yields_memberBodies clean.1.2.2
      have steady : Steady (members.flatMap Declaration.bodyIds)
          (inDeclaredClass id fun _ => memberBodies arena id members) :=
        steady_inDeclaredClass fun _ => inner.frames
      refine .bind ((advances_inDeclaredClass fun _ _ =>
        inner.advances (List.nodup_append.mp nodup).1).framed steady) fun _ => rests.imp ?_
      rintro middle _ after _ found state _ _ ⟨step, sameContext, entered⟩ known
      refine found state known step sameContext fun final later => ?_
      intro selfType object isClass isObject
      obtain ⟨_, _, isKnown, isThere, different⟩ :=
        known id name parameters members List.mem_cons_self
      obtain rfl := Option.some.inj (isKnown.symm.trans isClass)
      obtain rfl := Option.some.inj (isThere.symm.trans isObject)
      obtain ⟨inside, ⟨_, _, accepted⟩, rfl⟩ := entered _ _ isClass isObject different
      exact accepted final later.withoutContext

theorem object?_addAll {registry : Registry} {owner : TypeId} {object : ObjectType}
    (members : List Member) (isObject : registry.object? owner = some object)
    (different : ((object.members ++ members).map Member.name).Nodup) :
    (addAll registry owner members).object? owner =
      some { object with members := object.members ++ members } := by
  induction members generalizing registry object with
  | nil => simpa [addAll] using isObject
  | cons first rest ih =>
    have free : object.member? first.name = none := by
      refine List.find?_eq_none.mpr fun member isMember => ?_
      grind
    have added : (registry.addMember owner first).2 = registry.modifyObject owner fun object =>
        { object with members := object.members ++ [first] } := by
      simp [Registry.addMember, isObject, free]
    have next : (registry.addMember owner first).2.object? owner =
        some { object with members := object.members ++ [first] } := by
      rw [added]
      exact Registry.object?_modifyObject isObject
    have later := ih next (by simpa using different)
    simpa [addAll] using later

/-- The states between the passes over a module, in their order. -/
structure Passes
    (arena : Arena)
    (path : ModulePath)
    (interfaces : Interfaces)
    (file : SourceFile)
    (start imported named typed valued bodied ordered finish : CheckState) : Prop where
  imports : stateAfter (declareImports interfaces file.imports) start = imported
  names : stateAfter (declareNames file.declarations) imported = named
  types : stateAfter (declareTypes file.declarations) named = typed
  values : stateAfter (initialValues arena file.declarations) typed = valued
  bodies : stateAfter (bodies arena file.declarations) valued = bodied
  order : stateAfter (order arena (file.declarations.map Declaration.id)) bodied = ordered
  interface : stateAfter (interface path file.declarations) ordered = finish

theorem exists_passes (arena : Arena) (path : ModulePath) (interfaces : Interfaces)
    (file : SourceFile) (start : CheckState) :
    ∃ imported named typed valued bodied ordered,
      Passes arena path interfaces file start imported named typed valued bodied ordered
          (stateAfter (sourceFile arena path interfaces file) start) ∧
        answer (sourceFile arena path interfaces file) start =
          answer (interface path file.declarations) ordered :=
  ⟨_, _, _, _, _, _, ⟨rfl, rfl, rfl, rfl, rfl, rfl, rfl⟩, rfl⟩

section Passes

variable {path : ModulePath} {interfaces : Interfaces} {file : SourceFile}
variable {start imported named typed valued bodied ordered finish : CheckState}
variable {declarations : List Declaration} {entries : List (String × Binding)} {final : CheckState}

structure Passed
    (file : SourceFile)
    (start imported named typed valued bodied ordered finish : CheckState) : Prop where
  imports : Step file.ids start imported
  names : Additive file.ids imported named
  types : Progress file.ids named typed
  values : Progress file.ids typed valued
  bodies : Step (file.declarations.flatMap Declaration.topBodyIds) valued bodied
  order : Step [] bodied ordered
  interface : Additive [] ordered finish

theorem Passes.passed
    (passes :
      Passes arena path interfaces file start imported named typed valued bodied ordered finish)
    (clean : file.Clean allowed) :
    Passed file start imported named typed valued bodied ordered finish := by
  have importIds : file.imports.map Import.id ⊆ file.ids := by simp [SourceFile.ids]
  have declarationIds : Declaration.idsOfAll file.declarations ⊆ file.ids := by
    simp [SourceFile.ids]
  have nodup : (Declaration.idsOfAll file.declarations).Nodup :=
    (List.nodup_append.mp clean.nodup).2.1
  constructor
  · rw [← passes.imports]
    exact (yields_declareImports.frames start).1.mono importIds
  · rw [← passes.names]
    exact adds_declareNames declarationIds imported
  · rw [← passes.types]
    exact ((advances_declareTypes 0 clean.declarations).progress named rfl).mono declarationIds
  · rw [← passes.values]
    exact ((advances_initialValues 0 clean.declarations nodup).progress typed rfl).mono
      declarationIds
  · rw [← passes.bodies]
    exact (steady_bodies clean.declarations (List.Subset.refl _) valued).1
  · rw [← passes.order]
    exact (steady_order bodied).1
  · rw [← passes.interface]
    exact adds_interface ordered

theorem Passed.trace
    (passed : Passed file start imported named typed valued bodied ordered finish) :
    Trace file.ids start finish := by
  have bodyIds : file.declarations.flatMap Declaration.topBodyIds ⊆ file.ids :=
    List.Subset.trans (Declaration.flatMap_sublist Declaration.topBodyIds_sublist).subset
      (by simp [SourceFile.ids])
  have names := passed.imports.toTrace.trans passed.names.toTrace
  have values := (names.trans passed.types.toTrace).trans passed.values.toTrace
  have bodies := values.trans (passed.bodies.toTrace.mono bodyIds)
  have order := bodies.trans (passed.order.toTrace.mono (List.nil_subset _))
  exact order.trans (passed.interface.toTrace.mono (List.nil_subset _))

theorem Passes.apart
    (passes :
      Passes arena path interfaces file start imported named typed valued bodied ordered finish)
    (passed : Passed file start imported named typed valued bodied ordered finish)
    (noClasses : start.classes = .empty) : Apart start.registry.objects.size named := by
  have importedApart : Apart start.registry.objects.size imported := by
    have absent : ∀ id, imported.classes.get? id = none := by
      intro id
      rw [passed.imports.classes, noClasses]
      rfl
    refine ⟨fun id selfType isClass => ?_, fun id other object isFirst => ?_⟩
    · rw [absent] at isClass
      simp at isClass
    · simp [CheckState.classObject?, absent] at isFirst
  rw [← passes.names]
  exact apart_declareNames _ importedApart (Nat.le_of_eq (by rw [passed.imports.objects]))

theorem Passed.objects
    (passed : Passed file start imported named typed valued bodied ordered finish)
    (apart : Apart start.registry.objects.size named) :
    start.registry.objects.toList <+: finish.registry.objects.toList := by
  have names : start.registry.objects.toList <+: named.registry.objects.toList := by
    rw [← passed.imports.objects]
    exact passed.names.objects
  have progress := passed.types.trans passed.values
  have values : start.registry.objects.toList <+: valued.registry.objects.toList := by
    rw [List.prefix_iff_getElem?] at names ⊢
    intro index inside
    have old := names index inside
    rw [Array.getElem?_toList] at old ⊢
    rw [progress.objects index (Array.getElem?_eq_some_iff.mp old).1 ?_, old]
    intro id _ isClass
    obtain ⟨selfType, isInstance, isObject⟩ := Option.bind_eq_some_iff.mp isClass
    obtain ⟨object, isOwn, newer, _⟩ := (progress.apart apart).objects id selfType isInstance
    obtain rfl := Option.some.inj (isOwn.symm.trans isObject)
    exact Nat.not_lt_of_le newer inside
  have ordered : start.registry.objects.toList <+: ordered.registry.objects.toList := by
    rw [passed.order.objects, passed.bodies.objects]
    exact values
  exact ordered.trans passed.interface.objects

theorem names_of_entries (names : List.Forall₂ (Names state) declarations entries) :
    entries.map Prod.fst = declarations.flatMap Declaration.names := by
  induction names with
  | nil => rfl
  | @cons first entry rest others isEntry _ ih =>
    rw [List.map_cons, ih]
    cases first with
    | value id mutable name written initial =>
      obtain rfl := isEntry
      rfl
    | function id name parameters result body =>
      obtain rfl := isEntry
      rfl
    | classType id name parameters members =>
      obtain ⟨_, _, rfl, _⟩ := isEntry
      rfl
    | stray id => exact isEntry.elim

theorem awaiting_of_entries (names : List.Forall₂ (Names state) declarations entries)
    (bound : ∀ entry ∈ entries, state.context.innermost.get? entry.1 = some entry.2) :
    ∀ declaration ∈ declarations, Awaiting state declaration := by
  induction names with
  | nil => simp
  | @cons first entry rest others isEntry _ ih =>
    rw [List.forall_mem_cons] at bound ⊢
    exact ⟨⟨entry, isEntry, bound.1⟩, ih bound.2⟩

structure Found
    (interfaces : Interfaces)
    (file : SourceFile)
    (start valued : CheckState) : Prop where
  outer : valued.context.outer = start.context.outer
  kind : valued.context.innermost.kind = start.context.innermost.kind
  names :
    valued.context.names =
      file.imports.map Import.bindingName ++ file.declarations.flatMap Declaration.names
  nodup : valued.context.names.Nodup
  imports :
    ∀ entry ∈ file.imports,
      valued.context.innermost.get? entry.bindingName = some (entry.entry interfaces).2
  declared : ∀ declaration ∈ file.declarations, declaration.id ∈ valued.declared
  valued :
    ∀ final, Later (file.declarations.flatMap Declaration.topValueIds) valued final →
      ∀ declaration ∈ file.declarations, Valued final valued declaration

theorem Passes.found
    (passes :
      Passes arena path interfaces file start imported named typed valued bodied ordered finish)
    (clean : file.Clean allowed) (empty : start.context.names = [])
    (noClasses : start.classes = .empty) (regular : start.Regular)
    (silent : valued.diagnostics = []) : Found interfaces file start valued := by
  have passed := passes.passed clean
  have apart := passes.apart passed noClasses
  have silentTyped := passed.values.silent silent
  have silentNamed := passed.types.silent silentTyped
  have silentImported := passed.names.silent silentNamed
  have regularImported := passed.imports.regular silentImported regular
  have regularNamed := passed.names.regular silentNamed regularImported
  have regularTyped := passed.types.regular silentTyped regularNamed
  have declarationNodup : (Declaration.idsOfAll file.declarations).Nodup :=
    (List.nodup_append.mp clean.nodup).2.1
  obtain ⟨contextImported, nodupImported⟩ :
      imported.context = start.context.extend (file.imports.map (Import.entry interfaces)) ∧
        imported.context.names.Nodup := by
    rw [← passes.imports] at silentImported ⊢
    exact yields_declareImports.holds start silentImported regular List.nodup_nil _ (.refl _)
      (by simp [empty])
  have isBound : NamesBound imported file.declarations named := by
    rw [← passes.names] at silentNamed ⊢
    exact namesBound_declareNames clean.declarations declarationNodup nodupImported silentNamed
  obtain ⟨entries, contextNamed, entriesNamed⟩ := isBound.entries
  have namesNamed : named.context.names =
      file.imports.map Import.bindingName ++ file.declarations.flatMap Declaration.names := by
    rw [contextNamed, contextImported, Context.names_extend, Context.names_extend, empty,
      names_of_entries entriesNamed]
    simp [Import.entry]
  have apartNames := List.nodup_append.mp (namesNamed ▸ isBound.nodup)
  have inScope : ∀ entry ∈ file.imports.map (Import.entry interfaces) ++ entries,
      named.context.innermost.get? entry.1 = some entry.2 := by
    intro entry member
    refine Context.get?_of_mem isBound.nodup ?_
    rw [contextNamed, contextImported, Context.extend_append]
    exact List.mem_append_right _ member
  have awaiting := awaiting_of_entries entriesNamed fun entry member =>
    inScope entry (List.mem_append_right _ member)
  obtain ⟨retypes, declared⟩ : TypesDeclared named file.declarations typed := by
    rw [← passes.types] at silentTyped ⊢
    exact (advances_declareTypes _ clean.declarations).holds named rfl regularNamed silentTyped
      ⟨declarationNodup, apartNames.2.1, apart, isBound.declared, awaiting⟩
  have isDeclared : ∀ declaration ∈ file.declarations, declaration.id ∈ typed.declared :=
    fun declaration member => passed.types.declared ▸ isBound.declared declaration member
  have values : AllValued typed file.declarations valued := by
    rw [← passes.values] at silent ⊢
    exact (advances_initialValues _ clean.declarations declarationNodup).holds typed rfl
      regularTyped silent
      ⟨declarationNodup, apartNames.2.1, passed.types.apart apart, isDeclared, declared⟩
  have both := retypes.trans values.retypes
  refine ⟨?_, ?_, both.names.trans namesNamed, both.names ▸ isBound.nodup, ?_,
    fun declaration member => passed.values.declared ▸ isDeclared declaration member,
    values.valued⟩
  · rw [both.outer, contextNamed, contextImported]
    rfl
  · rw [both.kind, contextNamed, contextImported]
    rfl
  · intro entry member
    rw [both.others]
    · exact inScope (entry.entry interfaces)
        (List.mem_append_left _ (List.mem_map_of_mem member))
    · intro isDeclaration
      exact apartNames.2.2 _ (List.mem_map_of_mem member) _ isDeclaration rfl

theorem Found.classesKnown (found : Found interfaces file start valued) :
    ClassesKnown valued file.declarations := by
  intro id name parameters members isThere
  obtain ⟨_, selfType, object, _, _, isClass, isObject, entries⟩ :=
    found.valued valued (.refl valued) _ isThere
  exact ⟨selfType, object, isClass, isObject, entries.nodup⟩

theorem Valued.isTyped {declaration : Declaration} (isValued : Valued final valued declaration)
    (accepted : CodeAccepted final valued declaration)
    (rows : valued.registry.shapes.toList <+: final.registry.shapes.toList)
    (objects : valued.registry.objects.toList <+: final.registry.objects.toList) :
    declaration.Typed final valued.context := by
  cases declaration with
  | value id mutable name written initial => exact isValued
  | function id name parameters result body =>
    obtain ⟨type, bound, typed⟩ := isValued
    exact ⟨type, bound, typed, accepted⟩
  | stray id => exact isValued.elim
  | classType id name parameters members =>
    obtain ⟨nameType, selfType, object, bound, shape, isClass, isObject, entries⟩ := isValued
    exact ⟨nameType, selfType, object, bound, Registry.shape?_of_longer rows shape,
      Registry.object?_of_longer rows objects isObject, entries,
      accepted selfType object isClass isObject⟩

theorem object?_interface (path : ModulePath) (declarations : List Declaration)
    (state : CheckState)
    (isDeclared : ∀ declaration ∈ declarations, declaration.id ∈ state.declared)
    (different : (declarations.flatMap Declaration.names).Nodup) :
    (stateAfter (interface path declarations) state).registry.object?
        (answer (interface path declarations) state) =
      some ⟨path.text, .moduleInterface,
        declarations.filterMap (Declaration.published? state.context), none⟩ := by
  have published : declarations.filterMap (exportedMember? state) =
      declarations.filterMap (Declaration.published? state.context) := by
    refine List.filterMap_congr fun declaration member => ?_
    unfold exportedMember? Declaration.published?
    cases exported? declaration with
    | none => rfl
    | some entry => simp [isDeclared declaration member]
  have names : (declarations.filterMap (Declaration.published? state.context)).map Member.name =
      declarations.flatMap Declaration.names := by
    clear isDeclared different published
    induction declarations with
    | nil => rfl
    | cons first rest ih =>
      rw [List.filterMap_cons, List.flatMap_cons, ← ih]
      unfold Declaration.published? Declaration.names
      cases exported? first <;> rfl
  have declared : (state.registry.declareObject path.text .moduleInterface).2.object?
      (state.registry.declareObject path.text .moduleInterface).1 =
        some ⟨path.text, .moduleInterface, [], none⟩ := by
    simp [Registry.declareObject, Registry.object?, Registry.objectId?, Registry.shape?_intern,
      Registry.objects_intern]
  have added := object?_addAll
    (declarations.filterMap (Declaration.published? state.context)) declared
    (by simpa [names] using different)
  rw [stateAfter_interface, published]
  exact added

theorem Passes.moduleTyped
    (passes :
      Passes arena path interfaces file start imported named typed valued bodied ordered finish)
    (clean : file.Clean allowed) {outside : Context}
    (entered : start.context = outside.push .moduleBody) (noClasses : start.classes = .empty)
    (regular : start.Regular) (silent : finish.diagnostics = [])
    (later : Later (Declaration.idsOfAll file.declarations) finish final)
    (objects : finish.registry.objects.toList <+: final.registry.objects.toList) :
    ModuleTyped final outside finish.context interfaces file
      (answer (Check.interface path file.declarations) ordered) := by
  have passed := passes.passed clean
  have silentOrdered := passed.interface.silent silent
  have silentBodied := passed.order.silent silentOrdered
  have silentValued := passed.bodies.silent silentBodied
  have empty : start.context.names = [] := by
    rw [entered]
    rfl
  have found := passes.found clean empty noClasses regular silentValued
  have nodup : (Declaration.idsOfAll file.declarations).Nodup :=
    (List.nodup_append.mp clean.nodup).2.1
  have steadyBodies : Steady (file.declarations.flatMap Declaration.topBodyIds)
      (Check.bodies arena file.declarations) :=
    steady_bodies clean.declarations (List.Subset.refl _)
  have sameContext : finish.context = valued.context := by
    rw [← passes.interface, stateAfter_interface, ← passes.order, ← passes.bodies]
    exact (steadyBodies valued).2.symm
  have sameDeclared : ordered.declared = valued.declared :=
    passed.order.declared.trans passed.bodies.declared
  have sameObjects : ordered.registry.objects = valued.registry.objects :=
    passed.order.objects.trans passed.bodies.objects
  have laterBodied : Later (Declaration.idsOfAll file.declarations) bodied final := by
    refine (later.back passed.interface.toTrace ?_ (by simp)).before passed.order (by simp)
    exact Registry.grows_of_longer passed.interface.shapes passed.interface.objects
  have laterValued : Later (file.declarations.flatMap Declaration.topValueIds) valued final :=
    (laterBodied.mono (Declaration.flatMap_sublist Declaration.topValueIds_sublist).subset).before
      passed.bodies (Declaration.values_apart_bodies nodup)
  have objectsValued : valued.registry.objects.toList <+: final.registry.objects.toList := by
    rw [← sameObjects]
    exact passed.interface.objects.trans objects
  have accepted : ∀ declaration ∈ file.declarations, CodeAccepted final valued declaration := by
    have upToValues := ((passed.imports.toTrace.trans passed.names.toTrace).trans
      passed.types.toTrace).trans passed.values.toTrace
    have bodyIds : (file.declarations.flatMap Declaration.topBodyIds).Sublist
        (Declaration.idsOfAll file.declarations) :=
      Declaration.flatMap_sublist Declaration.topBodyIds_sublist
    rw [← passes.bodies] at silentBodied laterBodied
    exact (advances_bodies clean.declarations (nodup.sublist bodyIds)).holds valued rfl
      (upToValues.regular silentValued regular) silentBodied found.classesKnown final
      (laterBodied.mono bodyIds.subset)
  have published := object?_interface path file.declarations ordered
    (fun declaration member => sameDeclared ▸ found.declared declaration member)
    (List.nodup_append.mp (found.names ▸ found.nodup)).2.1
  have contextOrdered : ordered.context = finish.context := by
    rw [← passes.interface, stateAfter_interface]
  rw [passes.interface, contextOrdered] at published
  refine ⟨?_, ?_, ?_, ?_, ?_, ?_, _,
    Registry.object?_of_longer later.registry.shapes objects published, rfl⟩
  · rw [sameContext, found.outer, entered]
    rfl
  · rw [sameContext, found.kind, entered]
    rfl
  · rw [sameContext]
    exact found.names
  · rw [sameContext]
    exact found.nodup
  · rw [sameContext]
    exact found.imports
  · rw [sameContext]
    intro declaration member
    exact (found.valued final laterValued declaration member).isTyped
      (accepted declaration member) laterValued.registry.shapes objectsValued

end Passes

end Check

end Toolshed
