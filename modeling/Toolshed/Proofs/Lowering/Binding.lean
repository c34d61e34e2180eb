import Toolshed.Proofs.Lowering.Scopes
import Toolshed.Proofs.Lowering.Total
import Toolshed.Proofs.Script.WellScoped

namespace Toolshed

/-!
# What names of modules refer to in scripts

The scopes around a name in a module become the scopes around it in the script,
but a value is bound in its whole block there, and not only after its
declaration.
-/

def Site.Recorded (resolutions : Table Resolution) (binding : Binding) : Site → Prop
  | .identifier id => resolutions.get? id = some binding.origin.resolution
  | .target _ => binding.isMutable = true
  | .entry => False

/--
A use of a name in a script comes from one in a module. The script means what
the check has found exactly if no scope inside it binds the name later on.
-/
inductive Binds
    (resolutions : Table Resolution)
    (occurrence : Occurrence)
    (reference : Script.Reference) : Prop where
  | own {context : Context} {binding : Binding} {binder : Nat × Nat} :
      context.Sees occurrence.scopes →
      context.lookup occurrence.name = some binding →
      occurrence.site.Recorded resolutions binding →
      (∀ path, binding.origin ≠ .builtin path) →
      occurrence.binder? = some binder →
      Mirrors reference.scopes occurrence.scopes →
      reference.name = Script.nameOf occurrence.name →
      (reference.binder? = some binder ↔
        ∀ scope ∈ occurrence.scopes.take binder.1, occurrence.name ∉ scope.later) →
      Binds resolutions occurrence reference
  | host {context : Context} {binding : Binding} {path : String} :
      context.Sees occurrence.scopes →
      context.lookup occurrence.name = some binding →
      occurrence.site.Recorded resolutions binding →
      binding.origin = .builtin path →
      occurrence.binder? = none →
      Mirrors reference.scopes occurrence.scopes →
      reference.name = Script.headName path →
      (reference.binder? = none ↔
        ∀ scope ∈ occurrence.scopes, ∀ later ∈ scope.later,
          Script.nameOf later ≠ reference.name) →
      Binds resolutions occurrence reference
  | entry {place : Nat} :
      occurrence.site = .entry →
      occurrence.binder? = some (0, place) →
      Mirrors reference.scopes occurrence.scopes →
      reference.name = Script.nameOf occurrence.name →
      reference.binder? = some (0, place) →
      Binds resolutions occurrence reference

namespace Binds

variable {resolutions : Table Resolution} {context : Context} {binding : Binding}
variable {site : Site} {name : String} {outer : List (List String)} {scopes : List Visible}

theorem of_own (sees : context.Sees scopes) (found : context.lookup name = some binding)
    (recorded : site.Recorded resolutions binding) (own : ∀ path, binding.origin ≠ .builtin path)
    (mirrors : Mirrors outer scopes) (plainScopes : DeclarableScopes scopes)
    (distinct : DistinctScopes scopes) (plain : PlainName name) :
    Binds resolutions ⟨site, name, scopes⟩ ⟨Script.nameOf name, outer⟩ := by
  rcases sees.lookup found with ⟨binder, isBinder, _⟩ | ⟨_, path, isHost, _⟩
  · refine .own sees found recorded own isBinder mirrors rfl ?_
    unfold Script.Reference.binder?
    rw [mirrors.innermost?_eq plainScopes plain]
    exact innermost?_lastPlace?_eq_iff distinct isBinder
  · exact (own path isHost).elim

theorem of_host {path : String} (sees : context.Sees scopes)
    (found : context.lookup name = some binding) (recorded : site.Recorded resolutions binding)
    (isHost : binding.origin = .builtin path) (mirrors : Mirrors outer scopes)
    (plain : PlainName name) :
    Binds resolutions ⟨site, name, scopes⟩ ⟨Script.headName path, outer⟩ := by
  rcases sees.lookup found with ⟨_, _, own⟩ | ⟨notFound, other, isOther, start⟩
  · exact (own path isHost).elim
  · obtain rfl := (Origin.builtin.injEq _ _).mp (isHost.symm.trans isOther)
    refine .host sees found recorded isHost notFound mirrors rfl ?_
    have notBound : ∀ scope ∈ scopes, name ∉ scope.names := fun scope member =>
      List.idxOf?_eq_none_iff.mp (innermost?_eq_none_iff.mp notFound scope member)
    -- A name that is bound here and now never has the name that the host uses.
    have apart : ∀ scope ∈ scopes, ∀ bound ∈ scope.names,
        Script.nameOf bound ≠ Script.headName path := by
      intro scope member bound isBound same
      rcases start with ofHost | isName
      · exact Script.nameOf_ne_host ofHost bound same
      · rw [isName] at same
        exact notBound scope member (Script.eq_of_nameOf_eq_plain plain same ▸ isBound)
    unfold Script.Reference.binder?
    rw [mirrors.innermost?_eq_none_iff]
    constructor
    · intro none scope member later isLater
      exact none scope member later (List.mem_append_right _ isLater)
    · intro none scope member bound isBound
      rcases List.mem_append.mp isBound with now | later
      · exact apart scope member bound now
      · exact none scope member bound later

end Binds

namespace Lowering

variable {resolutions : Table Resolution}
variable {found : Statement} {names : List String} {lowered : Script.Statement}

theorem parameterNames_eq {found : List Parameter} (isLowered : parameterNames found = .ok names) :
    names = found.filterMap Parameter.name? := by
  induction found generalizing names with
  | nil => exact (Except.ok.inj isLowered).symm
  | cons first rest ih =>
    obtain ⟨name, isName, isLowered⟩ := Lowered.bind_eq_ok_iff.mp isLowered
    obtain ⟨others, areOthers, rfl⟩ := Lowered.map_eq_ok_iff.mp isLowered
    obtain rfl := ih areOthers
    cases first with
    | named id written type =>
      obtain rfl := Except.ok.inj isName
      rfl
    | stray id => simp [parameterName] at isName

theorem parameters_eq {found : List Parameter} (isLowered : parameters found = .ok names) :
    names = (found.filterMap Parameter.name?).map Script.nameOf := by
  obtain ⟨written, isWritten, isMade⟩ := Lowered.bind_eq_ok_iff.mp isLowered
  rw [← Except.ok.inj isMade, parameterNames_eq isWritten]

theorem names_declaration {found : Declaration}
    (isLowered : declaration resolutions found = .ok lowered) :
    lowered.functionName?.toList = found.functionNames.map Script.nameOf ∧
      lowered.variableName?.toList = found.valueNames.map Script.nameOf := by
  cases found with
  | value id mutable name type initial =>
    obtain ⟨_, _, rfl⟩ := Lowered.map_eq_ok_iff.mp isLowered
    exact ⟨rfl, rfl⟩
  | function id name parameters result body =>
    obtain ⟨_, _, isLowered⟩ := Lowered.bind_eq_ok_iff.mp isLowered
    obtain ⟨_, _, rfl⟩ := Lowered.map_eq_ok_iff.mp isLowered
    exact ⟨rfl, rfl⟩
  | classType id name parameters members =>
    obtain ⟨_, _, isLowered⟩ := Lowered.bind_eq_ok_iff.mp isLowered
    obtain ⟨_, _, rfl⟩ := Lowered.map_eq_ok_iff.mp isLowered
    exact ⟨rfl, rfl⟩
  | stray id =>
    unfold declaration at isLowered
    simp at isLowered

theorem names_statement (isLowered : statement resolutions found = .ok lowered) :
    lowered.functionName?.toList = found.functionNames.map Script.nameOf ∧
      lowered.variableName?.toList = found.valueNames.map Script.nameOf := by
  cases found with
  | declaration declared =>
    cases declared with
    | value | function =>
      exact names_declaration isLowered
    | classType | stray =>
      unfold statement at isLowered
      simp [declaration] at isLowered
  | expression | returnValue | assignment =>
    obtain ⟨_, _, rfl⟩ := Lowered.map_eq_ok_iff.mp isLowered
    exact ⟨rfl, rfl⟩
  | returnNothing =>
    obtain rfl := Except.ok.inj isLowered
    exact ⟨rfl, rfl⟩
  | conditional =>
    obtain ⟨_, _, isLowered⟩ := Lowered.bind_eq_ok_iff.mp isLowered
    obtain ⟨_, _, isLowered⟩ := Lowered.bind_eq_ok_iff.mp isLowered
    obtain ⟨_, _, rfl⟩ := Lowered.map_eq_ok_iff.mp isLowered
    exact ⟨rfl, rfl⟩
  | loop =>
    obtain ⟨_, _, isLowered⟩ := Lowered.bind_eq_ok_iff.mp isLowered
    obtain ⟨_, _, rfl⟩ := Lowered.map_eq_ok_iff.mp isLowered
    exact ⟨rfl, rfl⟩
  | stray id =>
    unfold statement at isLowered
    simp at isLowered

theorem Statement.names_of_isConditional (isConditional : found.isConditional = true) :
    found.functionNames = [] ∧ found.valueNames = [] := by
  cases found with
  | conditional => exact ⟨rfl, rfl⟩
  | _ => simp [Statement.isConditional] at isConditional

theorem declaredNames_conditional (isConditional : found.isConditional = true)
    (isLowered : statement resolutions found = .ok lowered) :
    Script.declaredNames [lowered] = [] := by
  obtain ⟨functions, values⟩ := names_statement isLowered
  obtain ⟨noFunction, noValue⟩ := Statement.names_of_isConditional isConditional
  rw [Script.declaredNames, Script.filterMap_cons_toList, Script.filterMap_cons_toList, functions,
    values, noFunction, noValue]
  rfl

theorem declaredNames_statements {found : List Statement} {lowered : List Script.Statement}
    (isLowered : statements resolutions found = .ok lowered) :
    Script.declaredNames lowered =
      (found.flatMap Statement.functionNames ++ found.flatMap Statement.valueNames).map
        Script.nameOf := by
  have both :
      lowered.filterMap Script.Statement.functionName? =
          (found.flatMap Statement.functionNames).map Script.nameOf ∧
        lowered.filterMap Script.Statement.variableName? =
          (found.flatMap Statement.valueNames).map Script.nameOf := by
    induction found generalizing lowered with
    | nil =>
      obtain rfl := Except.ok.inj isLowered
      exact ⟨rfl, rfl⟩
    | cons first rest ih =>
      obtain ⟨statement, isFirst, isLowered⟩ := Lowered.bind_eq_ok_iff.mp isLowered
      obtain ⟨others, areOthers, rfl⟩ := Lowered.map_eq_ok_iff.mp isLowered
      obtain ⟨functions, values⟩ := ih areOthers
      obtain ⟨firstFunctions, firstValues⟩ := names_statement isFirst
      rw [Script.filterMap_cons_toList, Script.filterMap_cons_toList, functions, values,
        firstFunctions, firstValues]
      simp
  rw [Script.declaredNames, both.1, both.2, List.map_append]

theorem mirrored_statements {found : List Statement} {lowered : List Script.Statement}
    (bound : List String) (isLowered : statements resolutions found = .ok lowered) :
    Visible.Mirrored (bound.map Script.nameOf ++ Script.declaredNames lowered)
      ⟨bound ++ found.flatMap Statement.functionNames,
        found.flatMap Statement.valueNames⟩ := by
  unfold Visible.Mirrored
  rw [declaredNames_statements isLowered]
  simp

end Lowering

structure Scoped
    (fixed : List String)
    (context : Context)
    (outer : List (List String))
    (scopes : List Visible) : Prop where
  sees : context.Sees scopes
  hosted : Scope.HostedBy fixed context.scopes
  mirrors : Mirrors outer scopes
  declarable : DeclarableScopes scopes
  distinct : DistinctScopes scopes

structure Opened
    (fixed : List String)
    (context : Context)
    (bound : List String)
    (outer : List (List String))
    (scopes : List Visible) : Prop where
  inside : context.Inside fixed bound scopes
  mirrors : Mirrors outer scopes
  declarable : DeclarableScopes (⟨bound, []⟩ :: scopes)
  distinct : DistinctScopes (⟨bound, []⟩ :: scopes)

variable {allowed : String → Prop}

theorem Parameter.allowed_names {found : List Parameter}
    (clean : ∀ parameter ∈ found, parameter.Clean allowed) :
    ∀ name ∈ found.filterMap Parameter.name?, allowed name := by
  intro name member
  obtain ⟨parameter, isParameter, isName⟩ := List.mem_filterMap.mp member
  cases parameter with
  | named id written type =>
    obtain rfl := Option.some.inj isName
    exact (clean _ isParameter).1
  | stray id => simp [Parameter.name?] at isName

theorem Statement.allowed_names {found : List Statement}
    (clean : Statement.CleanAll allowed found) :
    ∀ name ∈ found.flatMap Statement.functionNames ++ found.flatMap Statement.valueNames,
      allowed name := by
  induction found with
  | nil => simp
  | cons first rest ih =>
    simp only [Statement.CleanAll] at clean
    have ofFirst : ∀ name ∈ first.functionNames ++ first.valueNames, allowed name := by
      cases first with
      | declaration declared =>
        cases declared with
        | value | function =>
          simpa [Statement.functionNames, Statement.valueNames] using clean.1.2.1
        | classType | stray => simp [Statement.functionNames, Statement.valueNames]
      | _ => simp [Statement.functionNames, Statement.valueNames]
    grind

namespace Scoped

variable {fixed : List String} {context : Context} {outer : List (List String)}
variable {scopes : List Visible}

variable (around : Scoped fixed context outer scopes)
include around

theorem push :
    Opened fixed (context.push .block) [] outer scopes :=
  ⟨.push around.sees around.hosted .block, around.mirrors,
    List.forall_mem_cons.mpr ⟨by simp, around.declarable⟩,
    List.forall_mem_cons.mpr ⟨by simp, around.distinct⟩⟩

theorem enter {final : CheckState} {parameters : List Parameter} {types : List TypeId}
    (clean : ∀ parameter ∈ parameters, parameter.Clean DeclarableName)
    (distinct : DistinctParameters parameters)
    (denote : List.Forall₂ (Parameter.Denotes final) parameters types) (result : TypeId) :
    Opened fixed (context.enter parameters types result)
      (parameters.filterMap Parameter.name?) outer scopes := by
  refine ⟨.enter around.sees around.hosted denote result, around.mirrors,
    List.forall_mem_cons.mpr ⟨?_, around.declarable⟩,
    List.forall_mem_cons.mpr ⟨?_, around.distinct⟩⟩
  · simpa using Parameter.allowed_names clean
  · simpa [DistinctParameters] using distinct

theorem branch :
    Scoped fixed context ([] :: outer) (⟨[], []⟩ :: scopes) :=
  ⟨.branch around.sees, around.hosted, .inside (by simp [Visible.Mirrored]) around.mirrors,
    List.forall_mem_cons.mpr ⟨by simp, around.declarable⟩,
    List.forall_mem_cons.mpr ⟨by simp, around.distinct⟩⟩

theorem nameOf_mem {name : String} {binding : Binding}
    (found : context.lookup name = some binding) (own : ∀ path, binding.origin ≠ .builtin path) :
    Script.nameOf name ∈ outer.flatten := by
  rcases around.sees.lookup found with ⟨binder, isBinder, _⟩ | ⟨_, path, isHost, _⟩
  · by_contra absent
    have nowhere : innermost? (Script.lastPlace? (Script.nameOf name)) outer = none :=
      innermost?_eq_none_iff.mpr fun names isNames => Script.lastPlace?_eq_none_iff.mpr
        fun member => absent (List.mem_flatten_of_mem isNames member)
    have unbound := around.mirrors.innermost?_eq_none_iff.mp nowhere
    have notFound : innermost? (fun scope => scope.names.idxOf? name) scopes = none :=
      innermost?_eq_none_iff.mpr fun scope isScope => List.idxOf?_eq_none_iff.mpr
        fun member => unbound scope isScope name (List.mem_append_left _ member) rfl
    simp [notFound] at isBinder
  · exact (own path isHost).elim

end Scoped

theorem Visible.Mirrored.bindable {names : List String} {visible : Visible} {scopes : List Visible}
    (mirrored : visible.Mirrored names) (declarable : DeclarableScopes (visible :: scopes))
    (distinct : DistinctScopes (visible :: scopes)) : Script.Bindable names := by
  rw [mirrored]
  exact Script.bindable_nameOf (distinct _ List.mem_cons_self) (declarable _ List.mem_cons_self)

namespace Opened

variable {fixed : List String} {context : Context} {outer : List (List String)}
variable {scopes : List Visible}
variable {bound : List String}
variable {found : List Statement}

variable (opened : Opened fixed context bound outer scopes)
include opened

theorem parametersOnly :
    Scoped fixed context (bound.map Script.nameOf :: outer) (⟨bound, []⟩ :: scopes) :=
  ⟨opened.inside.sees [], opened.inside.hosted.cons _,
    .inside (by simp [Visible.Mirrored]) opened.mirrors, opened.declarable, opened.distinct⟩

theorem declarable_statements
    (clean : Statement.CleanAll DeclarableName found) :
    DeclarableScopes
      (⟨bound ++ found.flatMap Statement.functionNames, found.flatMap Statement.valueNames⟩ ::
        scopes) := by
  obtain ⟨ofBound, ofScopes⟩ := List.forall_mem_cons.mp opened.declarable
  have ofNames := Statement.allowed_names clean
  refine List.forall_mem_cons.mpr ⟨fun name member => ?_, ofScopes⟩
  rw [List.append_assoc] at member
  rcases List.mem_append.mp member with isBound | isDeclared
  · exact ofBound name (List.mem_append_left _ isBound)
  · exact ofNames name isDeclared

theorem distinct_statements {final : CheckState} {entered left : Context}
    (declares : DeclaresFunctions final context found entered)
    (accepted : Statement.AllAccepted final entered found left) :
    DistinctScopes
      (⟨bound ++ found.flatMap Statement.functionNames, found.flatMap Statement.valueNames⟩ ::
        scopes) := by
  obtain ⟨distinctBound, distinctScopes⟩ := List.forall_mem_cons.mp opened.distinct
  rw [List.append_nil] at distinctBound
  exact List.forall_mem_cons.mpr
    ⟨(opened.inside.declaresFunctions declares).nodup_values
      (opened.inside.nodup_functions distinctBound declares) accepted, distinctScopes⟩

end Opened

namespace Lowering

variable {fixed : List String} {final : CheckState} {context after : Context} {type : TypeId}
variable {outer : List (List String)} {scopes : List Visible} {bound : List String}

theorem binds_identifier {id : NodeId} {name : String} {lowered : Script.Expression}
    (plain : PlainName name) (typed : (Expression.identifier id name).HasType final context type)
    (around : Scoped fixed context outer scopes)
    (isLowered : identifier final.resolutions id name = .ok lowered) :
    List.Forall₂ (Binds final.resolutions) [⟨.identifier id, name, scopes⟩]
        (lowered.references outer) ∧
      lowered.WellScoped fixed outer.flatten := by
  obtain ⟨binding, found, _, recorded⟩ := typed.identifier
  unfold identifier at isLowered
  rw [recorded] at isLowered
  obtain ⟨bindingType, origin, node⟩ := binding
  have own (isOwn : ∀ path, origin ≠ .builtin path) :
      Binds final.resolutions ⟨.identifier id, name, scopes⟩ ⟨Script.nameOf name, outer⟩ :=
    .of_own around.sees found recorded isOwn around.mirrors around.declarable around.distinct plain
  cases origin with
  | builtin path =>
    obtain rfl := Except.ok.inj isLowered
    rw [Script.references_path]
    exact ⟨.cons (.of_host around.sees found recorded rfl around.mirrors plain) .nil,
      Script.wellScoped_path (around.sees.headName_mem around.hosted found rfl)⟩
  | declared | imported =>
    obtain rfl := Except.ok.inj isLowered
    exact ⟨.cons (own (by simp)) .nil, .inl (around.nameOf_mem found (by simp))⟩

mutual

theorem binds_expression (found : Expression) {context : Context} {type : TypeId}
    {outer : List (List String)} {scopes : List Visible} {lowered : Script.Expression}
    (clean : found.Clean DeclarableName) (distinct : found.Distinct)
    (typed : found.HasType final context type) (around : Scoped fixed context outer scopes)
    (isLowered : expression final.resolutions found = .ok lowered) :
    List.Forall₂ (Binds final.resolutions) (found.occurrences scopes)
        (lowered.references outer) ∧
      lowered.WellScoped fixed outer.flatten := by
  cases found with
  | number | string | boolean | unit =>
    obtain rfl := Except.ok.inj isLowered
    exact ⟨.nil, trivial⟩
  | identifier id name =>
    exact binds_identifier clean.1 typed around isLowered
  | binary id operator left right =>
    obtain ⟨_, _, typedLeft, typedRight, _⟩ := typed.binary
    obtain ⟨_, isLeft, isLowered⟩ := Lowered.bind_eq_ok_iff.mp isLowered
    obtain ⟨_, isRight, rfl⟩ := Lowered.map_eq_ok_iff.mp isLowered
    obtain ⟨bindsLeft, wellLeft⟩ :=
      binds_expression left clean.1 distinct.1 typedLeft around isLeft
    obtain ⟨bindsRight, wellRight⟩ :=
      binds_expression right clean.2 distinct.2 typedRight around isRight
    exact ⟨List.rel_append bindsLeft bindsRight, wellLeft, wellRight⟩
  | unary id operator operand =>
    obtain ⟨_, isOperand, rfl⟩ := Lowered.map_eq_ok_iff.mp isLowered
    unfold Expression.occurrences Script.Expression.references Script.Expression.WellScoped
    exact binds_expression operand clean distinct typed.unary.1 around isOperand
  | call id callee arguments =>
    obtain ⟨_, _, typedCallee, typedArguments, _⟩ := typed.call
    obtain ⟨_, isCallee, isLowered⟩ := Lowered.bind_eq_ok_iff.mp isLowered
    obtain ⟨_, areArguments, rfl⟩ := Lowered.map_eq_ok_iff.mp isLowered
    obtain ⟨bindsCallee, wellCallee⟩ :=
      binds_expression callee clean.1 distinct.1 typedCallee around isCallee
    obtain ⟨bindsArguments, wellArguments⟩ :=
      binds_expressions arguments clean.2 distinct.2 typedArguments around areArguments
    exact ⟨List.rel_append bindsCallee bindsArguments, wellCallee, wellArguments⟩
  | member id object name =>
    obtain ⟨_, typedObject, _⟩ := typed.member
    obtain ⟨_, isObject, rfl⟩ := Lowered.map_eq_ok_iff.mp isLowered
    unfold Expression.occurrences Script.Expression.references Script.Expression.WellScoped
    exact binds_expression object clean.1 distinct typedObject around isObject
  | lambda id parameters result body =>
    obtain ⟨_, _, _, denotes, typedBody, _⟩ := typed.lambda
    obtain ⟨_, isBody, isLowered⟩ := Lowered.bind_eq_ok_iff.mp isLowered
    obtain ⟨_, areNames, rfl⟩ := Lowered.map_eq_ok_iff.mp isLowered
    obtain rfl := parameters_eq areNames
    obtain ⟨bindsBody, wellBody⟩ := binds_lambdaBody body clean.2 distinct.2 clean.1.parameters
      distinct.1 denotes.parameters typedBody around isBody
    exact ⟨bindsBody, .nil, wellBody⟩
  | stray id => exact (Expression.HasType.not_stray typed).elim

theorem binds_expressions (found : List Expression) {context : Context} {types : List TypeId}
    {outer : List (List String)} {scopes : List Visible} {lowered : List Script.Expression}
    (clean : Expression.CleanAll DeclarableName found) (distinct : Expression.AllDistinct found)
    (typed : Expression.HaveTypes final context found types)
    (around : Scoped fixed context outer scopes)
    (isLowered : expressions final.resolutions found = .ok lowered) :
    List.Forall₂ (Binds final.resolutions) (Expression.occurrencesOfAll scopes found)
        (Script.referencesOfAll outer lowered) ∧
      Script.ExpressionsWellScoped fixed outer.flatten lowered := by
  cases found with
  | nil =>
    obtain rfl := Except.ok.inj isLowered
    exact ⟨.nil, trivial⟩
  | cons first rest =>
    obtain ⟨_, _, _, typedFirst, typedRest⟩ := typed.cons_inv
    obtain ⟨_, isFirst, isLowered⟩ := Lowered.bind_eq_ok_iff.mp isLowered
    obtain ⟨_, areRest, rfl⟩ := Lowered.map_eq_ok_iff.mp isLowered
    obtain ⟨bindsFirst, wellFirst⟩ :=
      binds_expression first clean.1 distinct.1 typedFirst around isFirst
    obtain ⟨bindsRest, wellRest⟩ :=
      binds_expressions rest clean.2 distinct.2 typedRest around areRest
    exact ⟨List.rel_append bindsFirst bindsRest, wellFirst, wellRest⟩

theorem binds_lambdaBody (body : LambdaBody) {context : Context} {parameters : List Parameter}
    {types : List TypeId} {declared : Option TypeId} {result : TypeId}
    {outer : List (List String)} {scopes : List Visible} {lowered : List Script.Statement}
    (clean : body.Clean DeclarableName) (distinct : body.Distinct)
    (cleanParameters : ∀ parameter ∈ parameters, parameter.Clean DeclarableName)
    (distinctParameters : DistinctParameters parameters)
    (denote : List.Forall₂ (Parameter.Denotes final) parameters types)
    (typed : body.HasType final context parameters types declared result)
    (around : Scoped fixed context outer scopes)
    (isLowered : lambdaBody final.resolutions body = .ok lowered) :
    List.Forall₂ (Binds final.resolutions)
        (body.occurrences scopes (parameters.filterMap Parameter.name?))
        (Script.statementReferences
          (((parameters.filterMap Parameter.name?).map Script.nameOf ++
            Script.declaredNames lowered) :: outer) lowered) ∧
      (Script.Function.make none ((parameters.filterMap Parameter.name?).map Script.nameOf)
        lowered).WellScoped fixed outer.flatten := by
  cases body with
  | expression body =>
    obtain ⟨_, typedBody, _⟩ := typed.expression
    obtain ⟨value, isValue, rfl⟩ := Lowered.map_eq_ok_iff.mp isLowered
    have inside := (around.enter cleanParameters distinctParameters denote
      (declared.getD .unknown)).parametersOnly
    have mirrored : Visible.Mirrored ((parameters.filterMap Parameter.name?).map Script.nameOf)
        ⟨parameters.filterMap Parameter.name?, []⟩ := by simp [Visible.Mirrored]
    have declaresNothing : Script.declaredNames [.returnValue value] = [] := rfl
    obtain ⟨bindsValue, wellValue⟩ := binds_expression body clean distinct typedBody inside isValue
    unfold LambdaBody.occurrences Script.Function.WellScoped
    rw [declaresNothing, List.append_nil]
    refine ⟨?_, mirrored.bindable inside.declarable inside.distinct, wellValue, trivial⟩
    simpa [Script.statementReferences, Script.Statement.references] using bindsValue
  | block body =>
    obtain ⟨_, accepted, _⟩ := typed.block_inv
    exact binds_block body clean distinct accepted
      (around.enter cleanParameters distinctParameters denote _) isLowered

theorem binds_block (found : Block) {context : Context} {bound : List String}
    {outer : List (List String)} {scopes : List Visible} {lowered : List Script.Statement}
    (clean : found.Clean DeclarableName) (distinct : found.Distinct)
    (accepted : found.Accepted final context) (opened : Opened fixed context bound outer scopes)
    (isLowered : block final.resolutions found = .ok lowered) :
    List.Forall₂ (Binds final.resolutions) (found.occurrences scopes bound)
        (Script.statementReferences
          ((bound.map Script.nameOf ++ Script.declaredNames lowered) :: outer) lowered) ∧
      (Script.Function.make none (bound.map Script.nameOf) lowered).WellScoped fixed
        outer.flatten := by
  cases found with
  | statements id found =>
    obtain ⟨_, _, declares, acceptedAll⟩ := accepted.statements_inv
    have mirrored := mirrored_statements bound isLowered
    have declarable := opened.declarable_statements clean
    have distinctScopes := opened.distinct_statements declares acceptedAll
    obtain ⟨binds, well⟩ := binds_statements found clean distinct acceptedAll
      (opened.inside.declaresFunctions declares) (.inside mirrored opened.mirrors) declarable
      distinctScopes isLowered
    exact ⟨binds, mirrored.bindable declarable distinctScopes, well⟩
  | stray id => exact (Block.Accepted.not_stray accepted).elim

theorem binds_statements (found : List Statement) {context after : Context} {bound : List String}
    {outer : List (List String)} {scopes : List Visible} {lowered : List Script.Statement}
    (clean : Statement.CleanAll DeclarableName found) (distinct : Statement.AllDistinct found)
    (accepted : Statement.AllAccepted final context found after)
    (inside : context.Inside fixed bound scopes)
    (mirrors : Mirrors outer (⟨bound, found.flatMap Statement.valueNames⟩ :: scopes))
    (declarable : DeclarableScopes (⟨bound, found.flatMap Statement.valueNames⟩ :: scopes))
    (distinctScopes : DistinctScopes (⟨bound, found.flatMap Statement.valueNames⟩ :: scopes))
    (isLowered : statements final.resolutions found = .ok lowered) :
    List.Forall₂ (Binds final.resolutions) (Statement.occurrencesOfAll scopes bound found)
        (Script.statementReferences outer lowered) ∧
      Script.WellScoped fixed outer.flatten lowered := by
  cases found with
  | nil =>
    obtain rfl := Except.ok.inj isLowered
    exact ⟨.nil, trivial⟩
  | cons first rest =>
    obtain ⟨_, acceptedFirst, acceptedRest⟩ := accepted.cons_inv
    obtain ⟨_, isFirst, isLowered⟩ := Lowered.bind_eq_ok_iff.mp isLowered
    obtain ⟨_, areRest, rfl⟩ := Lowered.map_eq_ok_iff.mp isLowered
    obtain ⟨bindsFirst, wellFirst⟩ := binds_statement first clean.1 distinct.1 acceptedFirst
      ⟨inside.sees _, inside.hosted.cons _, mirrors, declarable, distinctScopes⟩ isFirst
    obtain ⟨bindsRest, wellRest⟩ := binds_statements rest clean.2 distinct.2 acceptedRest
      (inside.accepted acceptedFirst) mirrors.pass declarable.pass distinctScopes.pass areRest
    exact ⟨List.rel_append bindsFirst bindsRest, wellFirst, wellRest⟩

theorem binds_statement (found : Statement) {context after : Context} {outer : List (List String)}
    {scopes : List Visible} {lowered : Script.Statement} (clean : found.Clean DeclarableName)
    (distinct : found.Distinct) (accepted : found.Accepted final context after)
    (around : Scoped fixed context outer scopes)
    (isLowered : statement final.resolutions found = .ok lowered) :
    List.Forall₂ (Binds final.resolutions) (found.occurrences scopes)
        (lowered.references outer) ∧
      lowered.WellScoped fixed outer.flatten := by
  cases found with
  | declaration declared =>
    cases declared with
    | value id mutable name written initial =>
      obtain ⟨_, _, typed, _⟩ := accepted.value_inv
      obtain ⟨_, isInitial, rfl⟩ := Lowered.map_eq_ok_iff.mp isLowered
      exact binds_expression initial clean.2.2.2 distinct typed around isInitial
    | function id name parameters result body =>
      obtain ⟨_, _, _, denotes, acceptedBody, _⟩ := accepted.function_inv
      obtain ⟨_, areNames, isLowered⟩ := Lowered.bind_eq_ok_iff.mp isLowered
      obtain ⟨_, isBody, rfl⟩ := Lowered.map_eq_ok_iff.mp isLowered
      obtain rfl := parameters_eq areNames
      exact binds_block body clean.2.2.2 distinct.2 acceptedBody
        (around.enter clean.2.2.1.parameters distinct.1 denotes.parameters _) isBody
    | classType => exact (Statement.Accepted.not_classType accepted).elim
    | stray => exact (Statement.Accepted.not_strayDeclaration accepted).elim
  | expression id found =>
    obtain ⟨_, _, typed⟩ := accepted.expression_inv
    obtain ⟨_, isFound, rfl⟩ := Lowered.map_eq_ok_iff.mp isLowered
    exact binds_expression found clean distinct typed around isFound
  | returnNothing id =>
    obtain rfl := Except.ok.inj isLowered
    exact ⟨.nil, trivial⟩
  | returnValue id value =>
    obtain ⟨_, _, _, typed, _⟩ := accepted.returnValue_inv
    obtain ⟨_, isValue, rfl⟩ := Lowered.map_eq_ok_iff.mp isLowered
    exact binds_expression value clean distinct typed around isValue
  | conditional id test thenBlock otherwise =>
    obtain ⟨_, ⟨_, typedTest, _⟩, acceptedThen, acceptedElse⟩ := accepted.conditional_inv
    obtain ⟨_, isTest, isLowered⟩ := Lowered.bind_eq_ok_iff.mp isLowered
    obtain ⟨_, isThen, isLowered⟩ := Lowered.bind_eq_ok_iff.mp isLowered
    obtain ⟨_, isElse, rfl⟩ := Lowered.map_eq_ok_iff.mp isLowered
    obtain ⟨bindsTest, wellTest⟩ := binds_expression test clean.1 distinct.1 typedTest around isTest
    obtain ⟨bindsThen, wellThen⟩ :=
      binds_block thenBlock clean.2.1 distinct.2.1 acceptedThen around.push isThen
    obtain ⟨bindsElse, wellElse⟩ :=
      binds_elseBranch otherwise clean.2.2 distinct.2.2 acceptedElse around isElse
    rw [Script.references_conditional, Script.wellScoped_conditional]
    exact ⟨List.rel_append (List.rel_append bindsTest bindsThen) bindsElse, wellTest, wellThen,
      wellElse⟩
  | loop id test body =>
    obtain ⟨_, ⟨_, typedTest, _⟩, acceptedBody⟩ := accepted.loop_inv
    obtain ⟨_, isTest, isLowered⟩ := Lowered.bind_eq_ok_iff.mp isLowered
    obtain ⟨_, isBody, rfl⟩ := Lowered.map_eq_ok_iff.mp isLowered
    obtain ⟨bindsTest, wellTest⟩ := binds_expression test clean.1 distinct.1 typedTest around isTest
    obtain ⟨bindsBody, wellBody⟩ :=
      binds_block body clean.2 distinct.2 acceptedBody around.push isBody
    exact ⟨List.rel_append bindsTest bindsBody, wellTest, wellBody⟩
  | assignment id target value =>
    obtain ⟨_, _, _, _, typed, found, mutable, _⟩ := accepted.assignment_inv
    obtain ⟨_, isValue, rfl⟩ := Lowered.map_eq_ok_iff.mp isLowered
    have own := Binding.own_of_isMutable mutable
    obtain ⟨bindsValue, wellValue⟩ := binds_expression value clean.2 distinct typed around isValue
    exact ⟨.cons
      (.of_own around.sees found mutable own around.mirrors around.declarable around.distinct
        clean.1.1) bindsValue, .inl (around.nameOf_mem found own), wellValue⟩
  | stray id => exact (Statement.Accepted.not_stray accepted).elim

theorem binds_elseBranch (found : ElseBranch) {context : Context} {outer : List (List String)}
    {scopes : List Visible} {lowered : Option (List Script.Statement)}
    (clean : found.Clean DeclarableName) (distinct : found.Distinct)
    (accepted : found.Accepted final context) (around : Scoped fixed context outer scopes)
    (isLowered : elseBranch final.resolutions found = .ok lowered) :
    List.Forall₂ (Binds final.resolutions) (found.occurrences scopes)
        (Script.branchReferences outer lowered) ∧
      ∀ body ∈ lowered, Script.BlockWellScoped fixed outer.flatten body := by
  cases found with
  | nothing =>
    obtain rfl := Except.ok.inj isLowered
    exact ⟨.nil, by simp⟩
  | block found =>
    obtain ⟨body, isFound, rfl⟩ := Lowered.map_eq_ok_iff.mp isLowered
    obtain ⟨binds, well⟩ := binds_block found clean distinct accepted.block_inv around.push isFound
    refine ⟨binds, ?_⟩
    rintro body ⟨rfl⟩
    exact well
  | statement found =>
    unfold elseBranch at isLowered
    rw [if_pos clean.1] at isLowered
    obtain ⟨nested, isFound, rfl⟩ := Lowered.map_eq_ok_iff.mp isLowered
    have declaresNothing := declaredNames_conditional clean.1 isFound
    obtain ⟨binds, well⟩ := binds_statement found clean.2 distinct accepted.statement_inv
      around.branch isFound
    unfold ElseBranch.occurrences
    refine ⟨?_, ?_⟩
    · simpa [Script.branchReferences, declaresNothing, Script.statementReferences] using binds
    · rintro body ⟨rfl⟩
      unfold Script.BlockWellScoped
      rw [declaresNothing]
      exact ⟨.nil, well, trivial⟩

end

end Lowering

end Toolshed
