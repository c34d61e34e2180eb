import Toolshed.Proofs.Script.Visible
import Toolshed.Proofs.Typing.Inversion
import Toolshed.Proofs.Typing.ModuleTyped

namespace Toolshed

/-!
# Typed code has a script

Every name in typed code stands for something, and every node of it is of the
kind that its place requires, so lowering never fails on it.
-/

variable {linkage : Linkage} {body : List Script.Statement} {first : Lowered α} {tree : SyntaxTree}

theorem Lowered.bind_eq_ok_iff {next : α → Lowered β} {script : β} :
    first >>= next = .ok script ↔ ∃ middle, first = .ok middle ∧ next middle = .ok script := by
  cases first <;> simp [bind, Except.bind]

theorem Lowered.map_eq_ok_iff {make : α → β} {script : β} :
    (first >>= fun middle => pure (make middle)) = .ok script ↔
      ∃ middle, first = .ok middle ∧ make middle = script := by
  cases first <;> simp [bind, Except.bind, pure, Except.pure]

def Lowered.Succeeds (lowered : Lowered α) : Prop :=
  ∃ script, lowered = .ok script

namespace Lowered.Succeeds

theorem pure (script : α) : Succeeds (Pure.pure script : Lowered α) :=
  ⟨script, rfl⟩

theorem bind {first : Lowered α} {next : α → Lowered β} (succeeds : Succeeds first)
    (rest : ∀ script, Succeeds (next script)) : Succeeds (first >>= next) := by
  obtain ⟨script, rfl⟩ := succeeds
  exact rest script

end Lowered.Succeeds

namespace Lowering

open Lowered (Succeeds)

variable {allowed : String → Prop} {final : CheckState}
variable {resolutions : Table Resolution} {id : NodeId} {found : List Parameter} {name : String}

theorem succeeds_identifier {resolution : Resolution} (name : String)
    (resolved : resolutions.get? id = some resolution) :
    Succeeds (identifier resolutions id name) := by
  unfold identifier
  rw [resolved]
  cases resolution <;> exact ⟨_, rfl⟩

theorem succeeds_parameterNames (clean : ∀ parameter ∈ found, parameter.Clean allowed) :
    Succeeds (parameterNames found) := by
  induction found with
  | nil => exact .pure []
  | cons first rest ih =>
    obtain ⟨firstClean, restClean⟩ := List.forall_mem_cons.mp clean
    cases first with
    | named id name type =>
      exact (Succeeds.pure name).bind fun _ =>
        (ih restClean).bind fun _ => .pure _
    | stray id => exact firstClean.elim

theorem succeeds_parameters (clean : ∀ parameter ∈ found, parameter.Clean allowed) :
    Succeeds (parameters found) :=
  (succeeds_parameterNames clean).bind fun _ => .pure _

mutual

theorem succeeds_expression (found : Expression) {context : Context} {type : TypeId}
    (clean : found.Clean allowed) (typed : found.HasType final context type) :
    Succeeds (expression final.resolutions found) := by
  cases found with
  | number | string | boolean | unit =>
    exact .pure _
  | identifier id name =>
    obtain ⟨_, _, _, resolved⟩ := typed.identifier
    exact succeeds_identifier name resolved
  | binary id operator left right =>
    obtain ⟨_, _, typedLeft, typedRight, _⟩ := typed.binary
    exact (succeeds_expression left clean.1 typedLeft).bind fun _ =>
      (succeeds_expression right clean.2 typedRight).bind fun _ => .pure _
  | unary id operator operand =>
    exact (succeeds_expression operand clean typed.unary.1).bind fun _ => .pure _
  | call id callee arguments =>
    obtain ⟨_, _, typedCallee, typedArguments, _⟩ := typed.call
    exact (succeeds_expression callee clean.1 typedCallee).bind fun _ =>
      (succeeds_expressions arguments clean.2 typedArguments).bind fun _ => .pure _
  | member id object name =>
    obtain ⟨_, typedObject, _⟩ := typed.member
    exact (succeeds_expression object clean.1 typedObject).bind fun _ => .pure _
  | lambda id parameters result body =>
    obtain ⟨_, _, _, _, typedBody, _⟩ := typed.lambda
    exact (succeeds_lambdaBody body clean.2 typedBody).bind fun _ =>
      (succeeds_parameters clean.1.parameters).bind fun _ => .pure _
  | stray id => exact (Expression.HasType.not_stray typed).elim

theorem succeeds_expressions (found : List Expression) {context : Context} {types : List TypeId}
    (clean : Expression.CleanAll allowed found)
    (typed : Expression.HaveTypes final context found types) :
    Succeeds (expressions final.resolutions found) := by
  cases found with
  | nil =>
    exact .pure _
  | cons first rest =>
    obtain ⟨_, _, _, typedFirst, typedRest⟩ := typed.cons_inv
    exact (succeeds_expression first clean.1 typedFirst).bind fun _ =>
      (succeeds_expressions rest clean.2 typedRest).bind fun _ => .pure _

theorem succeeds_lambdaBody (body : LambdaBody) {context : Context} {parameters : List Parameter}
    {types : List TypeId} {declared : Option TypeId} {result : TypeId}
    (clean : body.Clean allowed)
    (typed : body.HasType final context parameters types declared result) :
    Succeeds (lambdaBody final.resolutions body) := by
  cases body with
  | expression body =>
    obtain ⟨_, typedBody, _⟩ := typed.expression
    exact (succeeds_expression body clean typedBody).bind fun _ => .pure _
  | block body =>
    exact succeeds_block body clean typed.block_inv.2.1

theorem succeeds_block (found : Block) {context : Context} (clean : found.Clean allowed)
    (accepted : found.Accepted final context) : Succeeds (block final.resolutions found) := by
  cases found with
  | statements id found =>
    obtain ⟨_, _, _, acceptedAll⟩ := accepted.statements_inv
    exact succeeds_statements found clean acceptedAll
  | stray id => exact (Block.Accepted.not_stray accepted).elim

theorem succeeds_statements (found : List Statement) {context after : Context}
    (clean : Statement.CleanAll allowed found)
    (accepted : Statement.AllAccepted final context found after) :
    Succeeds (statements final.resolutions found) := by
  cases found with
  | nil =>
    exact .pure _
  | cons first rest =>
    obtain ⟨_, acceptedFirst, acceptedRest⟩ := accepted.cons_inv
    exact (succeeds_statement first clean.1 acceptedFirst).bind fun _ =>
      (succeeds_statements rest clean.2 acceptedRest).bind fun _ => .pure _

theorem succeeds_statement (found : Statement) {context after : Context}
    (clean : found.Clean allowed) (accepted : found.Accepted final context after) :
    Succeeds (statement final.resolutions found) := by
  cases found with
  | declaration declared =>
    cases declared with
    | value id mutable name written initial =>
      obtain ⟨_, _, typed, _⟩ := accepted.value_inv
      exact (succeeds_expression initial clean.2.2.2 typed).bind fun _ => .pure _
    | function id name parameters result body =>
      obtain ⟨_, _, _, _, acceptedBody, _⟩ := accepted.function_inv
      exact (succeeds_parameters clean.2.2.1.parameters).bind fun _ =>
        (succeeds_block body clean.2.2.2 acceptedBody).bind fun _ => .pure _
    | classType => exact (Statement.Accepted.not_classType accepted).elim
    | stray => exact (Statement.Accepted.not_strayDeclaration accepted).elim
  | expression id found =>
    obtain ⟨_, _, typed⟩ := accepted.expression_inv
    exact (succeeds_expression found clean typed).bind fun _ => .pure _
  | returnNothing id =>
    exact .pure _
  | returnValue id value =>
    obtain ⟨_, _, _, typed, _⟩ := accepted.returnValue_inv
    exact (succeeds_expression value clean typed).bind fun _ => .pure _
  | conditional id test thenBlock otherwise =>
    obtain ⟨_, ⟨_, typedTest, _⟩, acceptedThen, acceptedElse⟩ := accepted.conditional_inv
    exact (succeeds_expression test clean.1 typedTest).bind fun _ =>
      (succeeds_block thenBlock clean.2.1 acceptedThen).bind fun _ =>
        (succeeds_elseBranch otherwise clean.2.2 acceptedElse).bind fun _ => .pure _
  | loop id test body =>
    obtain ⟨_, ⟨_, typedTest, _⟩, acceptedBody⟩ := accepted.loop_inv
    exact (succeeds_expression test clean.1 typedTest).bind fun _ =>
      (succeeds_block body clean.2 acceptedBody).bind fun _ => .pure _
  | assignment id target value =>
    obtain ⟨_, _, _, _, typed, _⟩ := accepted.assignment_inv
    exact (succeeds_expression value clean.2 typed).bind fun _ => .pure _
  | stray id => exact (Statement.Accepted.not_stray accepted).elim

theorem succeeds_elseBranch (found : ElseBranch) {context : Context} (clean : found.Clean allowed)
    (accepted : found.Accepted final context) : Succeeds (elseBranch final.resolutions found) := by
  cases found with
  | nothing =>
    exact .pure _
  | block found =>
    exact (succeeds_block found clean accepted.block_inv).bind fun _ => .pure _
  | statement found =>
    unfold elseBranch
    rw [if_pos clean.1]
    exact (succeeds_statement found clean.2 accepted.statement_inv).bind fun _ => .pure _

end

variable {context : Context}

theorem succeeds_function {result : Option TypeExpression} {body : Block}
    (clean : Declaration.Clean allowed (.function id name found result body))
    (accepted : FunctionAccepted final context found result body) :
    Succeeds (declaration final.resolutions (.function id name found result body)) := by
  obtain ⟨_, _, _, acceptedBody, _⟩ := accepted
  exact (succeeds_parameters clean.2.1.parameters).bind fun _ =>
    (succeeds_block body clean.2.2 acceptedBody).bind fun _ => .pure _

theorem succeeds_value {mutable : Bool} {written : Option TypeExpression} {initial : Expression}
    {type : TypeId} (clean : Declaration.Clean allowed (.value id mutable name written initial))
    (typed : ValueTyped final context written initial type) :
    Succeeds (declaration final.resolutions (.value id mutable name written initial)) := by
  obtain ⟨_, _, _, typedInitial, _⟩ := typed
  exact (succeeds_expression initial clean.2.2 typedInitial).bind fun _ => .pure _

theorem succeeds_classMembers {members : List Declaration} {entries : List Member}
    (clean : Declaration.CleanMembers allowed members)
    (typed : List.Forall₂ (TypedEntry final context) members entries)
    (accepted : ∀ member ∈ members, member.BodyAccepted final context) :
    Succeeds (classMembers final.resolutions members) := by
  induction typed with
  | nil =>
    exact .pure _
  | @cons first entry rest _ typedFirst _ ih =>
    obtain ⟨acceptedFirst, acceptedRest⟩ := List.forall_mem_cons.mp accepted
    have restSucceeds := ih clean.2 acceptedRest
    cases first with
    | value id mutable name written initial =>
      obtain ⟨_, _, typedValue⟩ := typedFirst
      exact (succeeds_value clean.1.2 typedValue).bind fun _ =>
        (Succeeds.pure _).bind fun _ => restSucceeds.bind fun _ => .pure _
    | function id name found result body =>
      exact (succeeds_function clean.1.2 acceptedFirst).bind fun _ =>
        (Succeeds.pure _).bind fun _ => restSucceeds.bind fun _ => .pure _
    | classType | stray => exact typedFirst.elim

theorem succeeds_declaration {found : Declaration} (clean : found.Clean allowed)
    (typed : found.Typed final context) : Succeeds (declaration final.resolutions found) := by
  cases found with
  | value id mutable name written initial =>
    obtain ⟨_, _, typedValue⟩ := typed
    exact succeeds_value clean typedValue
  | function id name found result body =>
    obtain ⟨_, _, _, accepted⟩ := typed
    exact succeeds_function clean accepted
  | classType id name found members =>
    obtain ⟨_, _, _, _, _, _, ⟨⟨_, _, _, _, _, entries, _, _⟩, _⟩, accepted⟩ := typed
    exact (succeeds_parameterNames clean.2.1).bind fun _ =>
      (succeeds_classMembers clean.2.2 entries accepted).bind fun _ => .pure _
  | stray id => exact typed.elim

theorem succeeds_declarations {found : List Declaration}
    (clean : ∀ declaration ∈ found, declaration.Clean allowed)
    (typed : ∀ declaration ∈ found, declaration.Typed final context) :
    Succeeds (declarations final.resolutions found) := by
  induction found with
  | nil => exact .pure []
  | cons first rest ih =>
    obtain ⟨cleanFirst, cleanRest⟩ := List.forall_mem_cons.mp clean
    obtain ⟨typedFirst, typedRest⟩ := List.forall_mem_cons.mp typed
    exact (succeeds_declaration cleanFirst typedFirst).bind fun _ =>
      (ih cleanRest typedRest).bind fun _ => .pure _

theorem kept_declaration {found : Declaration} {lowered : Script.Statement}
    (isLowered : declaration resolutions found = .ok lowered) : lowered.Kept := by
  cases found with
  | value id mutable name type initial =>
    obtain ⟨_, _, rfl⟩ := Lowered.map_eq_ok_iff.mp isLowered
    trivial
  | function id name parameters result body =>
    obtain ⟨_, _, isLowered⟩ := Lowered.bind_eq_ok_iff.mp isLowered
    obtain ⟨_, _, rfl⟩ := Lowered.map_eq_ok_iff.mp isLowered
    trivial
  | classType id name parameters members =>
    obtain ⟨_, _, isLowered⟩ := Lowered.bind_eq_ok_iff.mp isLowered
    obtain ⟨_, _, rfl⟩ := Lowered.map_eq_ok_iff.mp isLowered
    trivial
  | stray id =>
    unfold declaration at isLowered
    simp at isLowered

theorem exists_kept_declarations {found : List Declaration} {lowered : List Script.Statement}
    (isLowered : declarations resolutions found = .ok lowered) (nonempty : found ≠ []) :
    ∃ statement ∈ lowered, statement.Kept := by
  obtain ⟨first, rest, rfl⟩ := List.exists_cons_of_ne_nil nonempty
  obtain ⟨statement, isFirst, isLowered⟩ := Lowered.bind_eq_ok_iff.mp isLowered
  obtain ⟨statements, _, rfl⟩ := Lowered.map_eq_ok_iff.mp isLowered
  exact ⟨statement, List.mem_cons_self, kept_declaration isFirst⟩

end Lowering

/-- The built-in ways of tying modules together. -/
structure Linkage.Builtin (linkage : Linkage) : Prop where
  importStyle : linkage.importStyle = .browser ∨ linkage.importStyle = .commonJs
  wrapper : linkage.wrapper = .browser ∨ linkage.wrapper = .commonJs ∨ linkage.wrapper = .bare

theorem Target.builtin_linkage (target : Target) : target.linkage.Builtin := by
  cases target <;> exact ⟨by simp [linkage], by simp [linkage]⟩

theorem Linkage.Builtin.exists_kept (builtin : linkage.Builtin) (path : ModulePath)
    (entries : List Script.Property) (visible : ∃ statement ∈ body, statement.Kept) :
    ∃ statement ∈ linkage.wrapper path body entries, statement.Kept := by
  obtain ⟨statement, member, kept⟩ := visible
  rcases builtin.wrapper with wrapper | wrapper | wrapper
  · rw [wrapper]
    exact ⟨_, List.mem_cons_self, trivial⟩
  · rw [wrapper]
    exact ⟨statement, List.mem_append_left _ member, kept⟩
  · rw [wrapper]
    exact ⟨statement, member, kept⟩

theorem SyntaxTree.lower_eq {resolutions : Table Resolution} (level : Level) (path : ModulePath)
    (isBody : Lowering.declarations resolutions tree.sourceFile.declarations = .ok body) :
    tree.lower linkage level path resolutions =
      .ok (level.apply (linkage.wrapper path
        (Lowering.imports linkage.importStyle path tree.sourceFile.imports ++ body)
        (tree.sourceFile.declarations.filterMap Lowering.export?))) := by
  unfold lower Lowering.sourceFile
  rw [isBody]
  rfl

theorem SyntaxTree.exists_lower {allowed : String → Prop} {final : CheckState}
    {outside whole : Context} {interfaces : Interfaces} {interface : TypeId}
    (builtin : linkage.Builtin) (level : Level) (path : ModulePath)
    (clean : tree.sourceFile.Clean allowed)
    (typed : ModuleTyped final outside whole interfaces tree.sourceFile interface) :
    ∃ script,
      tree.lower linkage level path final.resolutions = .ok script ∧
        (tree.sourceFile.declarations ≠ [] → Blank.allBlank (level.render script) = false) := by
  obtain ⟨body, isBody⟩ :=
    Lowering.succeeds_declarations clean.declarations typed.declarations
  refine ⟨_, lower_eq level path isBody, fun nonempty => ?_⟩
  obtain ⟨statement, member, kept⟩ := Lowering.exists_kept_declarations isBody nonempty
  obtain ⟨_, isThere, stays⟩ :=
    builtin.exists_kept path _ ⟨statement, List.mem_append_right _ member, kept⟩
  exact Script.not_allBlank_render _ (level.apply_ne_nil isThere stays)

end Toolshed
