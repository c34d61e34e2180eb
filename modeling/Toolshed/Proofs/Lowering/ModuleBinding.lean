import Mathlib.Data.List.Perm.Basic
import Toolshed.Proofs.Lowering.Binding
import Toolshed.Proofs.Token.Scan
import Toolshed.Proofs.Typing.CheckedModule
import Toolshed.Proofs.Typing.Profile

namespace Toolshed

/-!
# What names refer to in the script of a module

The names of a class and of a module are bound in all of it, in its script too.
-/

variable {context whole : Context} {outer : List (List String)} {scopes : List Visible}
variable {fixed : List String} {final : CheckState} {members : List Declaration}
variable {linkage : Linkage}
variable {interfaces : Interfaces} {allowed : String → Prop} {file : SourceFile}

theorem Scoped.refined (around : Scoped fixed whole outer scopes)
    (refines : context.Refines whole) : Scoped fixed context outer scopes :=
  ⟨around.sees.refined refines, Context.Sees.hostedBy_refined around.hosted refines,
    around.mirrors, around.declarable, around.distinct⟩

namespace Lowering

variable {final : CheckState} {context : Context}
variable {outer : List (List String)} {scopes : List Visible}

variable {id : NodeId} {name : String} {lowered : Script.Statement} {members : List Declaration}
variable {resolutions : Table Resolution}

theorem binds_valueDeclaration {mutable : Bool} {written : Option TypeExpression}
    {initial : Expression} {type : TypeId}
    (clean : Declaration.Clean DeclarableName (.value id mutable name written initial))
    (distinct : initial.Distinct) (typed : ValueTyped final context written initial type)
    (around : Scoped fixed context outer scopes)
    (isLowered :
      declaration final.resolutions (.value id mutable name written initial) = .ok lowered) :
    List.Forall₂ (Binds final.resolutions)
        ((Declaration.value id mutable name written initial).occurrences scopes)
        (lowered.references outer) ∧
      lowered.WellScoped fixed outer.flatten := by
  obtain ⟨_, _, refines, typedInitial, _⟩ := typed
  obtain ⟨_, isInitial, rfl⟩ := Lowered.map_eq_ok_iff.mp isLowered
  exact binds_expression initial clean.2.2 distinct typedInitial (around.refined refines)
    isInitial

theorem binds_functionDeclaration {found : List Parameter} {result : Option TypeExpression}
    {body : Block} (clean : Declaration.Clean DeclarableName (.function id name found result body))
    (distinct : DistinctParameters found ∧ body.Distinct)
    (accepted : FunctionAccepted final context found result body)
    (around : Scoped fixed context outer scopes)
    (isLowered :
      declaration final.resolutions (.function id name found result body) = .ok lowered) :
    List.Forall₂ (Binds final.resolutions)
        ((Declaration.function id name found result body).occurrences scopes)
        (lowered.references outer) ∧
      lowered.WellScoped fixed outer.flatten := by
  obtain ⟨_, _, denotes, acceptedBody, _⟩ := accepted
  obtain ⟨_, areNames, isLowered⟩ := Lowered.bind_eq_ok_iff.mp isLowered
  obtain ⟨_, isBody, rfl⟩ := Lowered.map_eq_ok_iff.mp isLowered
  obtain rfl := parameters_eq areNames
  exact binds_block body clean.2.2 distinct.2 acceptedBody
    (around.enter clean.2.1.parameters distinct.1 denotes.parameters _) isBody

theorem propertyReferences_property (outer : List (List String)) (name : String) (mutable : Bool) :
    Script.propertyReferences outer [property name mutable] = [⟨Script.nameOf name, outer⟩] := by
  cases mutable <;> simp [property, Script.propertyReferences, Script.Expression.references]

theorem propertyReferences_fields (outer : List (List String)) (names : List String) :
    Script.propertyReferences outer (names.map fun name => property name false) =
      names.map fun name => ⟨Script.nameOf name, outer⟩ := by
  induction names with
  | nil => rfl
  | cons first rest ih =>
    rw [List.map_cons, ← List.singleton_append, Script.propertyReferences_append, ih]
    rfl

theorem propertyReferences_memberEntry {found : Declaration} {entry : Script.Property}
    (outer : List (List String)) (isEntry : memberEntry found = .ok entry) :
    Script.propertyReferences outer [entry] =
      found.names.map fun name => ⟨Script.nameOf name, outer⟩ := by
  cases found with
  | value | function =>
    obtain rfl := Except.ok.inj isEntry
    exact propertyReferences_property outer _ _
  | classType | stray => simp [memberEntry] at isEntry

theorem wellScoped_fields {names bound : List String}
    (areBound : ∀ name ∈ names, Script.nameOf name ∈ bound) :
    Script.PropertiesWellScoped fixed bound (names.map fun name => property name false) := by
  induction names with
  | nil => trivial
  | cons first rest ih =>
    obtain ⟨isBound, areBound⟩ := List.forall_mem_cons.mp areBound
    exact ⟨.inl isBound, ih areBound⟩

theorem wellScoped_exports {found : List Declaration} {bound : List String}
    (areBound : ∀ name ∈ found.flatMap Declaration.names, Script.nameOf name ∈ bound) :
    Script.PropertiesWellScoped fixed bound (found.filterMap export?) := by
  induction found with
  | nil => trivial
  | cons first rest ih =>
    obtain ⟨ofFirst, ofRest⟩ := List.forall_mem_append.mp (List.flatMap_cons ▸ areBound)
    have wellRest := ih ofRest
    cases first with
    | value id mutable name =>
      cases mutable <;> exact ⟨.inl (ofFirst name List.mem_cons_self), wellRest⟩
    | function id name | classType id name =>
      exact ⟨.inl (ofFirst name List.mem_cons_self), wellRest⟩
    | stray id => exact wellRest

theorem entries_classMembers {lowered : List (Script.Statement × Script.Property)}
    (isLowered : classMembers resolutions members = .ok lowered) :
    lowered.map Prod.snd = members.filterMap export? := by
  induction members generalizing lowered with
  | nil =>
    obtain rfl := Except.ok.inj isLowered
    rfl
  | cons first rest ih =>
    obtain ⟨_, _, isLowered⟩ := Lowered.bind_eq_ok_iff.mp isLowered
    obtain ⟨_, isEntry, isLowered⟩ := Lowered.bind_eq_ok_iff.mp isLowered
    obtain ⟨_, areRest, rfl⟩ := Lowered.map_eq_ok_iff.mp isLowered
    rw [List.map_cons, ih areRest]
    cases first with
    | value | function =>
      obtain rfl := Except.ok.inj isEntry
      rfl
    | classType | stray => simp [memberEntry] at isEntry

theorem references_classFunction (outer : List (List String)) (name : String)
    (names : List String) (members : List Script.Statement) (entries : List Script.Property) :
    (classFunction name names members entries).references outer =
      let inner := (names.map Script.nameOf ++ Script.declaredNames members) :: outer
      Script.statementReferences inner members ++
        (Script.propertyReferences inner (names.map fun parameter => property parameter false) ++
          Script.propertyReferences inner entries) := by
  have declares (value : Script.Expression) :
      Script.declaredNames (members ++ [.returnValue value]) = Script.declaredNames members :=
    Script.declaredNames_concat members rfl rfl
  simp [classFunction, Script.Statement.references, Script.Function.references, declares,
    Script.statementReferences_append, Script.statementReferences, Script.Expression.references,
    Script.propertyReferences_append]

theorem names_classMembers {lowered : List (Script.Statement × Script.Property)}
    (isLowered : classMembers resolutions members = .ok lowered) :
    Script.declaredNames (lowered.map Prod.fst) =
        (members.flatMap Declaration.functionNames ++
          members.flatMap Declaration.valueNames).map Script.nameOf ∧
      ∀ outer,
        Script.propertyReferences outer (lowered.map Prod.snd) =
          (members.flatMap Declaration.names).map fun name => ⟨Script.nameOf name, outer⟩ := by
  unfold Script.declaredNames
  rw [List.map_append]
  suffices both :
      ((lowered.map Prod.fst).filterMap Script.Statement.functionName? =
          (members.flatMap Declaration.functionNames).map Script.nameOf ∧
        (lowered.map Prod.fst).filterMap Script.Statement.variableName? =
          (members.flatMap Declaration.valueNames).map Script.nameOf) ∧
      ∀ outer,
        Script.propertyReferences outer (lowered.map Prod.snd) =
          (members.flatMap Declaration.names).map fun name => ⟨Script.nameOf name, outer⟩ by
    rw [both.1.1, both.1.2]
    exact ⟨rfl, both.2⟩
  induction members generalizing lowered with
  | nil =>
    obtain rfl := Except.ok.inj isLowered
    exact ⟨⟨rfl, rfl⟩, fun _ => rfl⟩
  | cons first rest ih =>
    obtain ⟨_, isFirst, isLowered⟩ := Lowered.bind_eq_ok_iff.mp isLowered
    obtain ⟨_, isEntry, isLowered⟩ := Lowered.bind_eq_ok_iff.mp isLowered
    obtain ⟨_, areRest, rfl⟩ := Lowered.map_eq_ok_iff.mp isLowered
    obtain ⟨⟨functions, values⟩, handsOut⟩ := ih areRest
    obtain ⟨firstFunctions, firstValues⟩ := names_declaration isFirst
    refine ⟨⟨?_, ?_⟩, fun outer => ?_⟩
    · rw [List.map_cons, Script.filterMap_cons_toList, functions, firstFunctions,
        List.flatMap_cons, List.map_append]
    · rw [List.map_cons, Script.filterMap_cons_toList, values, firstValues,
        List.flatMap_cons, List.map_append]
    · rw [List.map_cons, ← List.singleton_append, Script.propertyReferences_append,
        propertyReferences_memberEntry outer isEntry, handsOut, List.flatMap_cons,
        List.map_append]

theorem binds_classMembers {entries : List Member}
    {lowered : List (Script.Statement × Script.Property)}
    (clean : Declaration.CleanMembers DeclarableName members)
    (distinct : Declaration.AllDistinct members)
    (typed : List.Forall₂ (TypedEntry final context) members entries)
    (accepted : ∀ member ∈ members, member.BodyAccepted final context)
    (around : Scoped fixed context outer scopes)
    (isLowered : classMembers final.resolutions members = .ok lowered) :
    List.Forall₂ (Binds final.resolutions) (Declaration.occurrencesOfAll scopes members)
        (Script.statementReferences outer (lowered.map Prod.fst)) ∧
      Script.WellScoped fixed outer.flatten (lowered.map Prod.fst) := by
  induction typed generalizing lowered with
  | nil =>
    obtain rfl := Except.ok.inj isLowered
    exact ⟨.nil, trivial⟩
  | @cons first entry rest _ typedFirst _ ih =>
    obtain ⟨acceptedFirst, acceptedRest⟩ := List.forall_mem_cons.mp accepted
    obtain ⟨_, isFirst, isLowered⟩ := Lowered.bind_eq_ok_iff.mp isLowered
    obtain ⟨_, _, isLowered⟩ := Lowered.bind_eq_ok_iff.mp isLowered
    obtain ⟨_, areRest, rfl⟩ := Lowered.map_eq_ok_iff.mp isLowered
    obtain ⟨bindsRest, wellRest⟩ := ih clean.2 distinct.2 acceptedRest areRest
    suffices binds : List.Forall₂ (Binds final.resolutions) (first.occurrences scopes)
          (Script.Statement.references outer _) ∧ Script.Statement.WellScoped fixed _ _ from
      ⟨List.rel_append binds.1 bindsRest, binds.2, wellRest⟩
    cases first with
    | value id mutable name written initial =>
      obtain ⟨_, _, typedValue⟩ := typedFirst
      exact binds_valueDeclaration clean.1.2 distinct.1 typedValue around isFirst
    | function id name found result body =>
      exact binds_functionDeclaration clean.1.2 distinct.1 acceptedFirst around isFirst
    | classType | stray => exact typedFirst.elim

end Lowering

theorem names_of_parameterEntries {parameters : List Parameter} {own : List Member}
    (entries : List.Forall₂ (Check.ParameterEntry final) parameters own) :
    own.map Member.name = parameters.filterMap Parameter.name? := by
  induction entries with
  | nil => rfl
  | @cons first _ _ _ isEntry _ ih =>
    cases first with
    | named id name written =>
      obtain ⟨_, rfl, _⟩ := isEntry
      rw [List.map_cons, ih]
      rfl
    | stray id => exact isEntry.elim

theorem names_of_typedEntries {inner : List Member}
    (entries : List.Forall₂ (TypedEntry final context) members inner) :
    inner.map Member.name = members.flatMap Declaration.names := by
  induction entries with
  | nil => rfl
  | @cons first _ _ _ isEntry _ ih =>
    cases first with
    | value | function =>
      obtain ⟨_, rfl, _⟩ := isEntry
      rw [List.map_cons, ih]
      rfl
    | classType | stray => exact isEntry.elim

theorem Declaration.names_perm (declarations : List Declaration) :
    (declarations.flatMap Declaration.names).Perm
      (declarations.flatMap Declaration.functionNames ++
        declarations.flatMap Declaration.valueNames) := by
  have split : Declaration.names =
      fun declaration => declaration.functionNames ++ declaration.valueNames := by
    funext declaration
    cases declaration <;> rfl
  rw [split]
  exact (List.flatMap_append_perm _ _ _).symm

theorem Declaration.allowed_names (clean : ∀ member ∈ members, member.Clean allowed) :
    ∀ name ∈ members.flatMap Declaration.names, allowed name := by
  intro name member
  obtain ⟨declaration, isMember, isName⟩ := List.mem_flatMap.mp member
  have cleanMember := clean declaration isMember
  cases declaration with
  | value | function | classType =>
    obtain rfl := List.mem_singleton.mp isName
    exact cleanMember.1
  | stray id => exact cleanMember.elim

theorem Declaration.CleanMembers.clean {members : List Declaration}
    (clean : Declaration.CleanMembers allowed members) :
    ∀ member ∈ members, member.Clean allowed := by
  induction members with
  | nil => simp
  | cons first rest ih =>
    exact List.forall_mem_cons.mpr ⟨clean.1.2, ih clean.2⟩

theorem Scoped.enterClass {object : ObjectType} {names : List String}
    (around : Scoped fixed context outer scopes)
    (isNames : (object.members.map Member.name).Perm names)
    (declarable : ∀ name ∈ names, DeclarableName name) (distinct : names.Nodup) :
    Scoped fixed (context.enterClass object) (names.map Script.nameOf :: outer)
      (⟨names, []⟩ :: scopes) := by
  refine ⟨.inside ⟨fun name => ?_, fun name binding path found => ?_⟩ around.sees,
    around.hosted.cons _, .inside (by simp [Visible.Mirrored]) around.mirrors,
    List.forall_mem_cons.mpr ⟨by simpa using declarable, around.declarable⟩,
    List.forall_mem_cons.mpr ⟨by simpa using distinct, around.distinct⟩⟩
  · rw [Scope.has_iff, ← isNames.mem_iff, Context.enterClass, List.map_map]
    rfl
  · obtain ⟨member, _, isBinding⟩ := List.mem_map.mp (Scope.mem_of_get? found)
    obtain ⟨_, rfl⟩ := Prod.ext_iff.mp isBinding
    simp [Member.binding]

namespace Lowering

variable {final : CheckState} {context : Context}
variable {outer : List (List String)} {scopes : List Visible}
variable {resolutions : Table Resolution} {lowered : List Script.Statement}

theorem binds_entries {names : List String} (entries : List String)
    (around : Scoped fixed context (names.map Script.nameOf :: outer) (⟨names, []⟩ :: scopes))
    (bound : ∀ name ∈ entries, name ∈ names) :
    List.Forall₂ (Binds resolutions)
      (entries.map fun name => ⟨.entry, name, ⟨names, []⟩ :: scopes⟩)
      (entries.map fun name => ⟨Script.nameOf name, names.map Script.nameOf :: outer⟩) := by
  rw [List.forall₂_map_left_iff, List.forall₂_map_right_iff, List.forall₂_same]
  intro name member
  obtain ⟨declarable, _⟩ := List.forall_mem_cons.mp around.declarable
  obtain ⟨distinctNames, _⟩ := List.forall_mem_cons.mp around.distinct
  rw [List.append_nil] at declarable distinctNames
  have plain := fun name member => (declarable name member).1
  obtain ⟨place, isPlace⟩ := Option.isSome_iff_exists.mp
    (List.isSome_idxOf?.mpr (bound name member))
  have last : Script.lastPlace? (Script.nameOf name) (names.map Script.nameOf) = some place := by
    rw [Script.lastPlace?_nameOf plain (plain name (bound name member)),
      Script.lastPlace?_eq_idxOf? distinctNames, isPlace]
  exact .entry rfl (innermost?_cons_of_here isPlace) around.mirrors rfl
    (innermost?_cons_of_here last)

theorem binds_declaration {found : Declaration} {lowered : Script.Statement}
    (clean : found.Clean DeclarableName) (distinct : found.Distinct)
    (typed : found.Typed final context) (around : Scoped fixed context outer scopes)
    (isLowered : declaration final.resolutions found = .ok lowered) :
    List.Forall₂ (Binds final.resolutions) (found.occurrences scopes)
        (lowered.references outer) ∧
      lowered.WellScoped fixed outer.flatten := by
  cases found with
  | value id mutable name written initial =>
    obtain ⟨_, _, typedValue⟩ := typed
    exact binds_valueDeclaration clean distinct typedValue around isLowered
  | function id name found result body =>
    obtain ⟨_, _, _, accepted⟩ := typed
    exact binds_functionDeclaration clean distinct accepted around isLowered
  | classType id name found members =>
    obtain ⟨_, _, object, _, _, _,
      ⟨⟨own, inner, _, areMembers, ownEntries, entries, _⟩, nodup⟩, accepted⟩ := typed
    obtain ⟨_, areNames, isLowered⟩ := Lowered.bind_eq_ok_iff.mp isLowered
    obtain ⟨body, areLowered, rfl⟩ := Lowered.map_eq_ok_iff.mp isLowered
    obtain rfl := parameterNames_eq areNames
    let handedOut := found.filterMap Parameter.name? ++ members.flatMap Declaration.names
    let bound := found.filterMap Parameter.name? ++ members.flatMap Declaration.functionNames ++
      members.flatMap Declaration.valueNames
    have areHandedOut : object.members.map Member.name = handedOut := by
      rw [areMembers, List.map_append, names_of_parameterEntries ownEntries,
        names_of_typedEntries entries]
    have sameNames : handedOut.Perm bound := by
      unfold bound
      rw [List.append_assoc]
      exact (Declaration.names_perm members).append_left _
    have declarable : ∀ name ∈ bound, DeclarableName name := by
      intro name member
      exact (List.mem_append.mp (sameNames.mem_iff.mpr member)).elim
        (Parameter.allowed_names clean.2.1 name) (Declaration.allowed_names clean.2.2.clean name)
    have distinctNames : bound.Nodup := sameNames.nodup_iff.mp (areHandedOut ▸ nodup)
    have inside : Scoped fixed (context.enterClass object) (bound.map Script.nameOf :: outer)
        (⟨bound, []⟩ :: scopes) :=
      around.enterClass (areHandedOut ▸ sameNames) declarable distinctNames
    obtain ⟨declares, handsOut⟩ := names_classMembers areLowered
    obtain ⟨bindsMembers, wellMembers⟩ :=
      binds_classMembers clean.2.2 distinct.2 entries accepted inside areLowered
    have bindsEntries : List.Forall₂ (Binds final.resolutions) _ _ :=
      binds_entries handedOut inside fun name => sameNames.mem_iff.mp
    have isBound (name : String) (member : name ∈ handedOut) :
        Script.nameOf name ∈ bound.map Script.nameOf ++ outer.flatten :=
      List.mem_append_left _ (List.mem_map_of_mem (sameNames.mem_iff.mp member))
    have wellEntries : Script.PropertiesWellScoped fixed _ (body.map Prod.snd) :=
      entries_classMembers areLowered ▸ wellScoped_exports fun name member =>
        isBound name (List.mem_append_right _ member)
    refine ⟨?_, ?_⟩
    · rw [references_classFunction, declares]
      dsimp only
      rw [handsOut, propertyReferences_fields, ← List.map_append, ← List.map_append,
        ← List.append_assoc]
      exact List.rel_append bindsMembers bindsEntries
    · unfold classFunction Script.Statement.WellScoped Script.Function.WellScoped
      rw [Script.declaredNames_concat _ rfl rfl, declares, ← List.map_append, ← List.append_assoc]
      exact ⟨Script.bindable_nameOf distinctNames declarable, Script.wellScoped_append.mpr
        ⟨wellMembers, Script.propertiesWellScoped_append.mpr
          ⟨wellScoped_fields fun name member => isBound name (List.mem_append_left _ member),
            wellEntries⟩, trivial⟩⟩
  | stray id => exact typed.elim

theorem binds_declarations {found : List Declaration}
    (clean : ∀ declaration ∈ found, declaration.Clean DeclarableName)
    (distinct : Declaration.AllDistinct found)
    (typed : ∀ declaration ∈ found, declaration.Typed final context)
    (around : Scoped fixed context outer scopes)
    (isLowered : declarations final.resolutions found = .ok lowered) :
    List.Forall₂ (Binds final.resolutions) (Declaration.occurrencesOfAll scopes found)
        (Script.statementReferences outer lowered) ∧
      Script.WellScoped fixed outer.flatten lowered := by
  induction found generalizing lowered with
  | nil =>
    obtain rfl := Except.ok.inj isLowered
    exact ⟨.nil, trivial⟩
  | cons first rest ih =>
    obtain ⟨cleanFirst, cleanRest⟩ := List.forall_mem_cons.mp clean
    obtain ⟨typedFirst, typedRest⟩ := List.forall_mem_cons.mp typed
    obtain ⟨_, isFirst, isLowered⟩ := Lowered.bind_eq_ok_iff.mp isLowered
    obtain ⟨_, areRest, rfl⟩ := Lowered.map_eq_ok_iff.mp isLowered
    obtain ⟨bindsFirst, wellFirst⟩ :=
      binds_declaration cleanFirst distinct.1 typedFirst around isFirst
    obtain ⟨bindsRest, wellRest⟩ := ih cleanRest distinct.2 typedRest areRest
    exact ⟨List.rel_append bindsFirst bindsRest, wellFirst, wellRest⟩

theorem declaredNames_module {file : SourceFile} (builtin : linkage.Builtin) (path : ModulePath)
    (isLowered : declarations resolutions file.declarations = .ok lowered) :
    Script.declaredNames (imports linkage.importStyle path file.imports ++ lowered) =
      file.names.map Script.nameOf := by
  have style (entry : Import) :
      let statement := linkage.importStyle (Script.nameOf entry.bindingName) path entry.path
      statement.functionName? = none ∧
        statement.variableName? = some (Script.nameOf entry.bindingName) := by
    rcases builtin.importStyle with style | style <;> rw [style] <;> exact ⟨rfl, rfl⟩
  obtain ⟨functions, values⟩ :
      lowered.filterMap Script.Statement.functionName? =
          (file.declarations.flatMap Declaration.functionNames).map Script.nameOf ∧
        lowered.filterMap Script.Statement.variableName? =
          (file.declarations.flatMap Declaration.valueNames).map Script.nameOf := by
    generalize file.declarations = found at isLowered
    induction found generalizing lowered with
    | nil =>
      obtain rfl := Except.ok.inj isLowered
      exact ⟨rfl, rfl⟩
    | cons first rest ih =>
      obtain ⟨_, isFirst, isLowered⟩ := Lowered.bind_eq_ok_iff.mp isLowered
      obtain ⟨_, areRest, rfl⟩ := Lowered.map_eq_ok_iff.mp isLowered
      obtain ⟨functions, values⟩ := ih areRest
      obtain ⟨firstFunctions, firstValues⟩ := names_declaration isFirst
      rw [Script.filterMap_cons_toList, Script.filterMap_cons_toList, functions, values,
        firstFunctions, firstValues]
      simp
  have importFunctions :
      (imports linkage.importStyle path file.imports).filterMap
        Script.Statement.functionName? = [] := by
    simp [imports, style]
  have importValues :
      (imports linkage.importStyle path file.imports).filterMap
        Script.Statement.variableName? =
        (file.imports.map Import.bindingName).map Script.nameOf := by
    simp [imports, style]
  unfold Script.declaredNames SourceFile.names
  rw [List.filterMap_append, List.filterMap_append, functions, values, importFunctions,
    importValues]
  simp

end Lowering

theorem Linkage.Builtin.references_wrapper (builtin : linkage.Builtin) (path : ModulePath)
    (body : List Script.Statement) (entries : List Script.Property) :
    ∃ padding before after,
      (∀ names ∈ padding, names = []) ∧
        Script.references (linkage.wrapper path body entries) =
          before ++ Script.statementReferences (Script.declaredNames body :: padding) body ++
            after := by
  rcases builtin.wrapper with wrapper | wrapper | wrapper
  · rw [wrapper]
    have declares : Script.declaredNames (body ++ [.returnValue (.object entries)]) =
        Script.declaredNames body := Script.declaredNames_concat body rfl rfl
    refine ⟨[[]], [⟨Script.headName "SHED.exportModule", [[]]⟩],
      Script.propertyReferences [Script.declaredNames body, []] entries, by simp, ?_⟩
    have declaredByCall (call : Script.Expression) :
        Script.declaredNames [.expression call] = [] := rfl
    simp [Wrapper.browser, Script.references, declaredByCall, Script.statementReferences,
      Script.Statement.references, Script.Expression.references, Script.references_path,
      Script.referencesOfAll, Script.Function.ownScope, Script.Function.references,
      declares, Script.statementReferences_append]
  · rw [wrapper]
    let exports : Script.Statement :=
      .expression (.assignment "module.exports" (.object entries))
    have declares : Script.declaredNames (body ++ [exports]) = Script.declaredNames body :=
      Script.declaredNames_concat body rfl rfl
    refine ⟨[], [], exports.references [Script.declaredNames body], by simp, ?_⟩
    simp [Wrapper.commonJs, Script.references, exports, declares,
      Script.statementReferences_append, Script.statementReferences]
  · rw [wrapper]
    exact ⟨[], [], [], by simp, by simp [Wrapper.bare, Script.references]⟩

structure Context.HostOnly (context : Context) : Prop where
  outer : context.outer = []
  host : context.innermost.OfHost

/-- The first names of the paths of the host that a context knows. -/
def Context.hostHeads (context : Context) : List String :=
  context.innermost.bindings.filterMap fun entry =>
    match entry.2.origin with
    | .builtin path => some (Script.headName path)
    | _ => none

theorem Context.HostOnly.hostedBy (hostOnly : context.HostOnly) :
    Scope.HostedBy context.hostHeads context.scopes := by
  refine ⟨context.innermost, by simp [Context.scopes, hostOnly.outer], ?_⟩
  exact fun name binding path found isHost =>
    List.mem_filterMap.mpr ⟨_, Scope.mem_of_get? found, by simp [isHost]⟩

namespace Profile

theorem hostOnly_bind {name path : String} {type : TypeId} (hostOnly : context.HostOnly)
    (start : Script.headName path ∈ Script.hostNames ∨ Script.headName path = name) :
    (bind context name type path).HostOnly := by
  unfold bind Context.define
  split
  · exact hostOnly
  · refine ⟨hostOnly.outer, fun other binding found => ?_⟩
    simp only [Scope.get?, List.lookup_append] at found
    cases old : context.innermost.bindings.lookup other with
    | some before =>
      rw [old] at found
      obtain rfl := Option.some.inj found
      exact hostOnly.host other before old
    | none =>
      rw [old, List.lookup_cons] at found
      split at found
      · next same =>
          obtain rfl := Option.some.inj found
          rw [beq_iff_eq.mp same]
          exact ⟨path, rfl, start⟩
      · simp at found

theorem hostOnly_bindTypes {names : List (String × TypeId)} {state : Registry × Context}
    (start : ∀ entry ∈ names, Script.headName entry.1 = entry.1) (hostOnly : state.2.HostOnly) :
    (bindTypes names state).2.HostOnly := by
  induction names generalizing state with
  | nil => exact hostOnly
  | cons first rest ih =>
    obtain ⟨startFirst, startRest⟩ := List.forall_mem_cons.mp start
    exact ih startRest (hostOnly_bind hostOnly (.inr startFirst))

theorem hostOnly_seed (profile : Profile) (registry : Registry) :
    (profile.seed registry).2.HostOnly := by
  have empty : Context.empty.HostOnly :=
    ⟨rfl, fun name binding found => by simp [Context.empty, Scope.get?] at found⟩
  have names : (bindTypes
      [("Number", .number), ("String", .string), ("Boolean", .boolean), ("Unit", .unit)]
      (registry, .empty)).2.HostOnly :=
    hostOnly_bindTypes (by decide) empty
  have console : Script.headName "console.log" ∈ Script.hostNames := by decide
  have string : Script.headName "String" ∈ Script.hostNames := by decide
  have window : Script.headName "window.alert" ∈ Script.hostNames := by decide
  unfold seed
  generalize bindTypes _ (registry, .empty) = state at names ⊢
  have both (print numberToString : TypeId) :
      (bind (bind state.2 "print" print "console.log") "numberToString" numberToString
        "String").HostOnly :=
    hostOnly_bind (hostOnly_bind names (.inl console)) (.inl string)
  cases profile with
  | default => exact both _ _
  | browser =>
    exact hostOnly_bind (hostOnly_bind (both _ _) (.inl window)) (.inl (by decide))

end Profile

theorem SourceFile.names_perm (file : SourceFile) :
    (file.imports.map Import.bindingName ++ file.declarations.flatMap Declaration.names).Perm
      file.names :=
  ((Declaration.names_perm file.declarations).append_left _).trans
    (List.perm_append_comm_assoc _ _ _)

namespace ModuleTyped

variable {outside : Context} {file : SourceFile} {interface : TypeId}

variable (typed : ModuleTyped final outside whole interfaces file interface)
include typed

theorem has_iff
    (name : String) : whole.innermost.has name = true ↔ name ∈ file.names := by
  rw [Scope.has_iff, ← file.names_perm.mem_iff, ← typed.names]
  rfl

theorem nodup_names :
    file.names.Nodup :=
  file.names_perm.nodup_iff.mp (typed.names ▸ typed.nodup)

theorem own {name path : String} {binding : Binding}
    (found : whole.innermost.get? name = some binding) : binding.origin ≠ .builtin path := by
  have isBound : name ∈ file.names := by
    rw [← typed.has_iff name, Scope.has, found]
    rfl
  rcases List.mem_append.mp (file.names_perm.mem_iff.mpr isBound) with isImport | isDeclared
  · obtain ⟨entry, member, rfl⟩ := List.mem_map.mp isImport
    obtain rfl := Option.some.inj ((typed.imports entry member).symm.trans found)
    simp [Import.entry]
  · obtain ⟨declaration, member, isName⟩ := List.mem_flatMap.mp isDeclared
    have isTyped := typed.declarations declaration member
    cases declaration with
    | value | function =>
      obtain ⟨_, isFound, _⟩ := isTyped
      obtain rfl := List.mem_singleton.mp isName
      obtain rfl := Option.some.inj (isFound.symm.trans found)
      simp
    | classType =>
      obtain ⟨_, _, _, isFound, _⟩ := isTyped
      obtain rfl := List.mem_singleton.mp isName
      obtain rfl := Option.some.inj (isFound.symm.trans found)
      simp
    | stray => exact isTyped.elim

end ModuleTyped

theorem SourceFile.allowed_names (clean : file.Clean allowed) :
    ∀ name ∈ file.names, allowed name := by
  intro name isName
  rcases List.mem_append.mp (file.names_perm.mem_iff.mpr isName) with isImport | isDeclared
  · obtain ⟨entry, member, rfl⟩ := List.mem_map.mp isImport
    exact clean.imports entry member
  · exact Declaration.allowed_names clean.declarations name isDeclared

theorem ModuleTyped.around {outside : Context} {interface : TypeId} {padding : List (List String)}
    (typed : ModuleTyped final outside whole interfaces file interface)
    (hostOnly : outside.HostOnly) (hosted : Scope.HostedBy fixed outside.scopes)
    (clean : file.Clean DeclarableName) (empty : ∀ names ∈ padding, names = []) :
    Scoped fixed whole (file.names.map Script.nameOf :: padding) [⟨file.names, []⟩] := by
  refine ⟨.inside ⟨typed.has_iff, fun _ _ _ => typed.own⟩ ?_, (typed.outer ▸ hosted).cons _,
    .inside (by simp [Visible.Mirrored]) (.outside empty), ?_, ?_⟩
  · rw [typed.outer, Context.scopes, hostOnly.outer]
    exact .host hostOnly.host
  · exact List.forall_mem_singleton.mpr (by simpa using SourceFile.allowed_names clean)
  · exact List.forall_mem_singleton.mpr (by simpa using typed.nodup_names)

theorem SyntaxTree.Proper.binds_lower {tree : SyntaxTree} {path : ModulePath}
    {registry : Registry} (proper : tree.Proper DeclarableName)
    (distinct : Declaration.AllDistinct tree.sourceFile.declarations) (builtin : linkage.Builtin)
    (hostOnly : context.HostOnly) (sound : registry.Sound)
    (success : (tree.check path context registry interfaces).success = true) :
    ∃ script before found after,
      tree.lower linkage .none path (tree.check path context registry interfaces).resolutions =
          .ok script ∧
        Script.references script = before ++ found ++ after ∧
        List.Forall₂ (Binds (tree.check path context registry interfaces).resolutions)
          tree.sourceFile.occurrences found := by
  have typed := proper.check_typed sound success
  have clean := proper.sourceFile_clean
  obtain ⟨body, isBody⟩ := Lowering.succeeds_declarations clean.declarations typed.declarations
  let imports := Lowering.imports linkage.importStyle path tree.sourceFile.imports
  let entries := tree.sourceFile.declarations.filterMap Lowering.export?
  obtain ⟨padding, before, after, empty, isWrapped⟩ :=
    builtin.references_wrapper path (imports ++ body) entries
  rw [Lowering.declaredNames_module builtin path isBody, Script.statementReferences_append]
    at isWrapped
  have around := typed.around hostOnly hostOnly.hostedBy clean empty
  refine ⟨linkage.wrapper path (imports ++ body) entries,
    before ++ Script.statementReferences (tree.sourceFile.names.map Script.nameOf :: padding)
      imports, _, after, lower_eq .none path isBody, ?_,
    (Lowering.binds_declarations clean.declarations distinct typed.declarations around isBody).1⟩
  rw [isWrapped, ← List.append_assoc before]

end Toolshed
