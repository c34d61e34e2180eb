import Toolshed.Proofs.Syntax.Clean
import Toolshed.Proofs.Typing.Yield

namespace Toolshed

/-!
# Code without faults obeys the rules

A check of code that notes no fault has found a derivation of the typing
judgments. Only a statement may bind names, in the innermost scope.
-/

theorem Expression.id_mem_ids (expression : Expression) : expression.id ∈ expression.ids := by
  cases expression <;> simp [Expression.id, Expression.ids]

theorem Declaration.id_mem_ids (declaration : Declaration) : declaration.id ∈ declaration.ids := by
  cases declaration <;> simp [Declaration.id, Declaration.ids]

namespace Check

variable {allowed : String → Prop} {sites own : List NodeId} {state : CheckState}
variable {id node valueNode : NodeId} {name : String} {found : TypeId} {binding : Binding}

attribute [local simp] Fault.kind

theorem yields_denoting {find : Check TypeId}
    (inner : Yields Eq sites [] find fun _ type _ _ => type ≠ .unknown) :
    Yields Eq sites [] (denoting node find) fun _ type _ final =>
      final.denotations.get? node = some type ∧ type ≠ .unknown := by
  have known : ∀ state : CheckState,
      state.Regular → (stateAfter find state).diagnostics = [] → answer find state ≠ .unknown :=
    fun state regular silent => inner.holds state silent regular List.nodup_nil _ (.refl _)
  have steady : Steady sites (denoting node find) := steady_denoting inner.frames known
  have noted : ∀ state, (stateAfter (denoting node find) state).denotations.get? node =
      some (answer (denoting node find) state) := by
    intro state
    cases cached : state.denotations.get? node with
    | some type =>
      have run : denoting node find state = _ := run_denoting_known cached
      simp only [stateAfter, answer, StateT.run, run, cached]
    | none =>
      have run : denoting node find state = _ := run_denoting_new cached
      simp only [stateAfter, answer, StateT.run, run]
      simp [Table.get?_insert]
  refine ⟨steady, fun state id outside => ?_, fun state silent regular _ final later => ?_⟩
  · cases cached : state.denotations.get? node with
    | some type =>
      have run : stateAfter (denoting node find) state = state :=
        congrArg Prod.snd (run_denoting_known cached)
      rw [run]
      exact ⟨rfl, rfl⟩
    | none =>
      have run : stateAfter (denoting node find) state = _ :=
        congrArg Prod.snd (run_denoting_new cached)
      rw [run]
      exact inner.kept state id outside
  · exact ⟨later.denotations _ _ (noted state),
      ((steady state).1.regular silent regular).denotations _ _ (noted state)⟩

theorem yields_namedType :
    Yields Eq [id] [] (namedType id name) fun _ type _ _ => type ≠ .unknown := by
  refine .lookup fun binding => ?_
  split
  · exact .failed (by simp)
  · refine .get fun read => ?_
    split
    · next type denotes =>
        refine (Yields.pure fun _ _ _ regular _ _ => ?_).within (by grind)
        obtain ⟨bound, _, isDenoted⟩ := Option.bind_eq_some_iff.mp denotes
        refine regular.typeNames bound _ ?_
        unfold Registry.denoted? at isDenoted
        split at isDenoted
        · next denoted shape => rw [shape, Option.some.inj isDenoted]
        · simp at isDenoted
    · exact .failed (by simp)

mutual

theorem yields_resolve (written : TypeExpression) (clean : written.Clean allowed) :
    Yields Eq written.ids [] (resolve written) fun _ type _ final =>
      written.Denotes final type := by
  cases written with
  | named id name => exact yields_denoting yields_namedType
  | function id parameters result =>
    refine .within (yields_denoting (.next (yields_resolveAll parameters clean.1) fun types =>
      .next (yields_resolve result clean.2) fun type => yields_functionType.imp ?_))
      (by simp [TypeExpression.ids])
    exact fun _ _ _ _ isFunction _ _ => isFunction.1
  | stray id => simp [TypeExpression.Clean] at clean

theorem yields_resolveAll (written : List TypeExpression)
    (clean : TypeExpression.CleanAll allowed written) :
    Yields Eq (TypeExpression.idsOfAll written) [] (resolveAll written) fun _ _ _ _ => True := by
  cases written with
  | nil => exact .done
  | cons first rest =>
    exact (Yields.next (yields_resolve first clean.1) fun _ =>
      .next (yields_resolveAll rest clean.2) fun _ => .pure fun _ _ _ _ => trivial).within
      (by simp [TypeExpression.idsOfAll])

end

theorem yields_resolveOption (written : Option TypeExpression)
    (clean : ∀ type ∈ written, type.Clean allowed) :
    Yields Eq (written.toList.flatMap TypeExpression.ids) [] (resolveOption written)
      fun _ type _ final => Option.Rel (TypeExpression.Denotes final) written type := by
  cases written with
  | none => exact .pure fun _ _ => .none
  | some type =>
    exact (Yields.next (yields_resolve type (clean type rfl)) fun _ =>
      .pure fun _ _ denotes => .some denotes).within (by simp)

theorem yields_parameterTypes (parameters : List Parameter)
    (clean : ∀ parameter ∈ parameters, parameter.Clean allowed) :
    Yields Eq (parameters.flatMap Parameter.ids) [] (parameterTypes parameters)
      fun _ types _ final => List.Forall₂ (Parameter.Denotes final) parameters types := by
  induction parameters with
  | nil => exact .pure fun _ _ => .nil
  | cons first rest ih =>
    rw [List.forall_mem_cons] at clean
    cases first with
    | stray id => exact absurd clean.1 (by simp [Parameter.Clean])
    | named id name written =>
      exact (Yields.next (yields_resolve written clean.1.2) fun _ => .next (ih clean.2) fun _ =>
        .pure fun _ _ rest first => .cons first rest).within (by simp [Parameter.ids])

section Function

variable {α : Type} {parameters : List Parameter} {result : Option TypeExpression}
variable {accepted : Context → CheckState → Prop} {returns : Bool} {types : List TypeId}
variable {body : Check Unit}

theorem yields_signature (clean : CleanSignature allowed parameters result) :
    Yields Eq (signatureIds parameters result) [] (signature parameters result)
      fun _ type _ final =>
        ∃ types resultType,
          SignatureDenotes final parameters result types resultType ∧
            final.registry.shape? type = some (.function types (resultType.getD .unit)) := by
  refine (Yields.next (yields_parameterTypes parameters clean.parameters) fun types =>
    .next (yields_resolveOption result clean.result) fun resultType =>
      yields_functionType.imp ?_).within (by simp [signatureIds])
  exact fun _ _ _ _ isFunction denotes areTypes =>
    ⟨types, resultType, ⟨areTypes, denotes⟩, isFunction.2⟩

theorem yields_bindParameters (parameters : List Parameter) (types : List TypeId) :
    Yields Context.Widens [] [] (bindParameters parameters types) fun context _ last _ =>
      last = context.bindParameters parameters types := by
  induction parameters generalizing types with
  | nil => cases types <;> exact .pure fun _ _ => rfl
  | cons first rest ih =>
    cases types with
    | nil => cases first <;> exact .pure fun _ _ => rfl
    | cons type types =>
      cases first with
      | stray id => exact ih types
      | named id name written =>
        refine .bind yields_define fun _ context => (ih types).imp ?_
        rintro middle _ _ _ rfl defined
        show _ = (context.define _ _).2.bindParameters rest types
        rw [defined]

theorem Yields.inFunction {result : TypeId} {check : Check α}
    {found : Context → α → CheckState → Prop}
    (inner :
      Yields Context.Widens sites own check fun context value _ final =>
        found context value final) :
    Yields Eq sites own (Check.inFunction parameters types result check)
      fun context value _ final => found (context.enter parameters types result) value final := by
  have bound : Yields Context.Widens sites own
      (bindParameters parameters types >>= fun _ => check) fun context value _ final =>
        found (context.bindParameters parameters types) value final := by
    refine .bind (yields_bindParameters parameters types) fun _ context => inner.imp ?_
    rintro _ value _ final holds rfl
    exact holds
  exact bound.inScope

theorem yields_expectReturn {expected : TypeId} :
    Yields Eq [node] [] (expectReturn expected found node) fun _ _ _ _ =>
      found.fits expected = true := by
  unfold expectReturn
  split
  · next fits => exact (Yields.pure fun _ _ => fits).within (by grind)
  · exact .describe fun _ => .describe fun _ => .report (by simp)

theorem yields_expectReturns {result : TypeId} :
    Yields Eq [node] [] (expectReturns result returns node) fun _ _ _ _ =>
      result = .unit ∨ result = .unknown ∨ returns = true := by
  unfold expectReturns
  split
  · exact .describe fun _ => .report (by simp)
  · next harmless =>
      refine (Yields.pure fun _ _ => ?_).within (by grind)
      by_cases isUnit : result = .unit
      · exact .inl isUnit
      · by_cases isUnknown : result = .unknown
        · exact .inr (.inl isUnknown)
        · simpa [isUnit, isUnknown] using harmless

theorem yields_functionBlock {result : TypeId}
    (inner : Yields Context.Widens sites own body fun context _ _ final => accepted context final) :
    Yields Eq (id :: sites) own (functionBlock id parameters types result returns body)
      fun context _ _ final =>
        accepted (context.enter parameters types result) final ∧
          (result = .unit ∨ result = .unknown ∨ returns = true) :=
  (Yields.next inner.inFunction fun _ => yields_expectReturns.imp fun _ _ _ _ returned holds =>
    ⟨holds, returned⟩).within (by grind)

theorem yields_declaredFunction (clean : CleanSignature allowed parameters result)
    (inner : Yields Context.Widens sites own body fun context _ _ final => accepted context final) :
    Yields Eq (id :: (signatureIds parameters result ++ sites)) own
      (declaredFunction id parameters result returns body) fun context _ _ final =>
        ∃ types resultType,
          SignatureDenotes final parameters result types resultType ∧
            accepted (context.enter parameters types (resultType.getD .unit)) final ∧
            (resultType.getD .unit = .unit ∨ resultType.getD .unit = .unknown ∨
              returns = true) := by
  refine (Yields.next (yields_parameterTypes parameters clean.parameters) fun types =>
    .next (yields_resolveOption result clean.result) fun resultType =>
      (yields_functionBlock inner).imp ?_).within (by grind [signatureIds])
  exact fun _ _ _ _ holds denotes areTypes =>
    ⟨types, resultType, ⟨areTypes, denotes⟩, holds.1, holds.2⟩

end Function

theorem steady_resolution {resolution : Resolution} :
    Steady [id] (modify fun state =>
      { state with resolutions := state.resolutions.insert id resolution }) := by
  intro state
  refine ⟨⟨⟨List.prefix_rfl, fun silent => silent,
    fun _ _ placed => ⟨placed.diagnostics, placed.uses⟩, fun _ _ => rfl, ?_,
    fun _ _ denotes => denotes, fun sound => sound,
    fun _ regular => ⟨regular.toSound, regular.denotations⟩⟩, rfl, rfl, rfl⟩, rfl⟩
  intro other outside
  have different : other ≠ id := fun same => outside (same ▸ List.mem_singleton_self id)
  show (state.resolutions.insert id resolution).get? other = state.resolutions.get? other
  rw [Table.get?_insert, if_neg different]

theorem steady_identifier : Steady [id] (identifier id name) := by
  have here := List.mem_singleton_self id
  refine .bind steady_lookup fun found => ?_
  split
  · exact steady_failed (by simp) here
  · refine .bind steady_resolution fun _ => .bind (steady_recordUse here) fun _ => ?_
    split
    · exact .pure
    · exact steady_failed (by simp) here

theorem run_lookup (rest : Option Binding → Check α) :
    (lookup name >>= rest) state = rest (state.context.lookup name) state :=
  rfl

theorem run_identifier (id : NodeId) (bound : state.context.lookup name = some binding) :
    ∃ uses,
      identifier id name state =
        (match binding.type with
          | some type => Pure.pure type
          | none => failed (.pendingType name) id : Check TypeId)
          { state with
            resolutions := state.resolutions.insert id binding.origin.resolution
            uses := uses } := by
  obtain ⟨uses, recorded, _⟩ := exists_recordUse binding id
    { state with resolutions := state.resolutions.insert id binding.origin.resolution }
  refine ⟨uses, ?_⟩
  rw [← recorded]
  rw [identifier, run_lookup, bound]
  rfl

theorem identifier_found (silent : (stateAfter (identifier id name) state).diagnostics = []) :
    ∃ binding,
      state.context.lookup name = some binding ∧
        binding.type = some (answer (identifier id name) state) ∧
        (stateAfter (identifier id name) state).resolutions.get? id =
          some binding.origin.resolution := by
  have noisy : ∀ fault (state : CheckState), (failed fault id state).2.diagnostics ≠ [] :=
    fun _ _ => List.append_ne_nil_of_right_ne_nil _ (List.cons_ne_nil _ _)
  unfold stateAfter answer StateT.run at *
  cases bound : state.context.lookup name with
  | none =>
    have run : identifier id name state = failed (.undefinedName name) id state := by
      rw [identifier, run_lookup, bound]
    rw [run] at silent
    exact absurd silent (noisy _ _)
  | some binding =>
    obtain ⟨uses, run⟩ := run_identifier id bound
    rw [run] at silent ⊢
    cases hasType : binding.type with
    | none => exact absurd (by simpa [hasType] using silent) (noisy _ _)
    | some type => exact ⟨binding, rfl, hasType, (Table.get?_insert _ _ _ _).trans (if_pos rfl)⟩

theorem yields_identifier :
    Yields Eq [id] [id] (identifier id name >>= typed id) fun context type _ final =>
      (∃ binding,
        context.lookup name = some binding ∧
          binding.type = some type ∧
          final.resolutions.get? id = some binding.origin.resolution) ∧
        final.types.get? id = some type := by
  have here := List.mem_singleton_self id
  have steady : Steady [id] (identifier id name >>= typed id) :=
    Frames.bind steady_identifier fun _ => steady_typed here
  refine ⟨steady, fun state other outside => ?_, fun state silent regular nodup final later => ?_⟩
  · exact ⟨(steady state).1.types other outside, (steady state).1.resolutions other outside⟩
  · have silentBefore := (steady_typed here (stateAfter (identifier id name) state)).1.silent silent
    obtain ⟨binding, bound, hasType, resolved⟩ := identifier_found silentBefore
    have isTyped := yields_typed.holds (stateAfter (identifier id name) state) silent
      ((steady_identifier state).1.regular silentBefore regular) nodup final later
    exact ⟨⟨binding, bound, hasType, (later.resolutions id here).trans resolved⟩, isTyped.2⟩

theorem yields_binary {operator : BinaryOp} {left right : TypeId} :
    Yields Eq [id] [] (binary id operator left right) fun _ type _ _ =>
      left = .unknown ∨ right = .unknown ∨ operator.result? left right = some type := by
  unfold binary
  split
  · next unknown => exact (Yields.pure fun _ _ => unknown.imp_right .inl).within (by grind)
  · split
    · next type result => exact (Yields.pure fun _ _ => .inr (.inr result)).within (by grind)
    · refine .describe fun _ => .describe fun _ => .failed ?_
      cases operator <;> simp [BinaryOp.fault]

theorem yields_unary {operator : UnaryOp} {operand : TypeId} :
    Yields Eq [id] [] (unary id operator operand) fun _ type _ _ =>
      type = operand ∧ (operand = .unknown ∨ operand = operator.operandType) := by
  unfold unary
  split
  · next known => exact (Yields.pure fun _ _ => ⟨rfl, known⟩).within (by grind)
  · exact .describe fun _ => .failed (by simp)

theorem yields_arguments {index : Nat} {found : List (NodeId × TypeId)} {types : List TypeId}
    (inside : found.map Prod.fst ⊆ sites) :
    Yields Eq sites [] (arguments index found types) fun _ _ _ _ =>
      types.length = found.length →
      List.Forall₂ (fun found expected => found.fits expected = true)
        (found.map Prod.snd) types := by
  induction found generalizing index types with
  | nil =>
    refine (Yields.pure fun _ _ sameLength => ?_).within (by grind)
    obtain rfl := List.length_eq_zero_iff.mp sameLength
    exact .nil
  | cons first rest ih =>
    simp only [List.map_cons, List.cons_subset] at inside
    cases types with
    | nil => exact (Yields.pure fun _ _ sameLength => by simp at sameLength).within (by grind)
    | cons expected types =>
      have later := @ih (index + 1) types inside.2
      unfold arguments
      split
      · next fits =>
          exact later.imp fun _ _ _ _ rest sameLength =>
            .cons fits (rest (by simpa using sameLength))
      · exact (Yields.describe fun _ => .describe fun _ =>
          .reported later (by simp)).within (by grind)

theorem yields_call {callee : TypeId} {found : List (NodeId × TypeId)}
    (inside : found.map Prod.fst ⊆ sites) :
    Yields Eq (id :: sites) [] (call id callee found) fun _ type _ final =>
      CallRule final.registry callee (found.map Prod.snd) type := by
  unfold call
  split
  · next unknown => exact (Yields.pure fun _ _ => .unknown unknown).within (by grind)
  · refine .get fun read => ?_
    split
    · exact (Yields.describe fun _ => .failed (by simp)).within (by grind)
    · next parameters result callable =>
        split
        · next sameLength =>
            exact (Yields.next (yields_arguments inside) fun _ =>
              .pure fun _ _ fit _ _ grows =>
                .known (grows.callable? callable) (fit sameLength)).within (by grind)
        · exact .within (.reported .done (by simp)) (by grind)

theorem yields_member {object : TypeId} :
    Yields Eq [id] [] (member id object name) fun _ type _ final =>
      object = .unknown ∨
        (final.registry.member? object name).map Member.type = some (some type) := by
  unfold member
  split
  · next unknown => exact (Yields.pure fun _ _ => .inl unknown).within (by grind)
  · refine .get fun read => ?_
    split
    · next type found =>
        exact (Yields.pure fun _ _ _ _ grows =>
          .inr (grows.members object name type found)).within (by grind)
    · exact .failed (by simp)
    · exact .describe fun _ => .failed (by simp)

theorem yields_condition {keyword : Keyword} :
    Yields Eq [node] [] (condition keyword node found) fun _ _ _ _ =>
      found.fits .boolean = true := by
  unfold condition
  split
  · next fits => exact (Yields.pure fun _ _ => fits).within (by grind)
  · exact .describe fun _ => .report (by simp)

theorem yields_returned :
    Yields Eq [id, valueNode] [] (returned id valueNode found) fun context _ _ _ =>
      ∃ expected, context.returnType = some expected ∧ found.fits expected = true := by
  refine .get fun read => ?_
  split
  · exact .within (.report (by simp)) (by grind)
  · next expected isExpected =>
      refine (yields_expectReturn.imp fun context _ _ _ fits same _ _ => ?_).within (by grind)
      exact ⟨expected, same ▸ isExpected, fits⟩

theorem yields_assignment {target : String} :
    Yields Eq [id, valueNode] [] (assignment id target valueNode found) fun context _ _ _ =>
      ∃ binding expected,
        context.lookup target = some binding ∧
          binding.isMutable = true ∧
          binding.type = some expected ∧
          found.fits expected = true := by
  refine .lookup fun bound => ?_
  split
  · exact .within (.report (by simp)) (by grind)
  · next binding =>
      refine .nextHere (.within yields_recordUse (by grind)) fun _ => ?_
      split
      · next mutable =>
          split
          · exact .within (.report (by simp)) (by grind)
          · next expected typed =>
              split
              · next fits =>
                  exact (Yields.pure fun _ _ _ isBound =>
                    ⟨binding, expected, isBound, mutable, typed, fits⟩).within (by grind)
              · exact (Yields.describe fun _ => .describe fun _ =>
                  .report (by simp)).within (by grind)
      · exact .within (.report (by simp)) (by grind)

theorem yields_initialised {written : Option TypeExpression}
    (clean : ∀ type ∈ written, type.Clean allowed) :
    Yields Eq (valueNode :: written.toList.flatMap TypeExpression.ids) []
      (initialised name written valueNode found) fun _ type _ final =>
        ValueRule final found written type := by
  cases written with
  | none => exact (Yields.pure fun _ _ => .inferred).within (by grind)
  | some written =>
    refine .nextHere (.within (yields_resolve written (clean written rfl)) (by simp)) fun _ => ?_
    split
    · next fits => exact (Yields.pure fun _ _ denotes => .written denotes fits).within (by grind)
    · exact .within (.describe fun _ => .describe fun _ => .reported .done (by simp))
        (by grind)

theorem declareFunctions_skip {first : Statement} {rest : List Statement}
    (notFunction : first.isFunction = false) :
    declareFunctions (first :: rest) = declareFunctions rest := by
  cases first with
  | declaration declared =>
    cases declared with
    | function id name parameters result body => simp [Statement.isFunction] at notFunction
    | _ => rfl
  | _ => rfl

theorem yields_declareFunctions (found : List Statement)
    (clean : Statement.CleanAll allowed found) :
    Yields Context.Widens (Statement.idsOfAll found) [] (declareFunctions found)
      fun context _ last final => DeclaresFunctions final context found last := by
  induction found with
  | nil => exact .pure fun _ _ => .nil
  | cons first rest ih =>
    cases isFunction : first.isFunction with
    | false =>
      rw [declareFunctions_skip isFunction]
      exact ((ih clean.2).imp fun _ _ _ _ declares => .other isFunction declares).within
        (by simp [Statement.idsOfAll])
    | true =>
      obtain ⟨id, name, parameters, result, body, rfl⟩ : ∃ id name parameters result body,
          first = .declaration (.function id name parameters result body) := by
        unfold Statement.isFunction at isFunction
        split at isFunction
        · exact ⟨_, _, _, _, _, rfl⟩
        · simp at isFunction
      refine .within (.next (yields_signature clean.1.2.2.1) fun type =>
        .bind yields_declare fun _ context => (ih clean.2).imp ?_)
        (by grind [Statement.idsOfAll, Statement.ids, Declaration.ids])
      rintro middle _ last final declares defined ⟨types, resultType, denotes, shape⟩
      exact .function denotes shape defined declares

theorem nodes_expressions (arena : Arena) (found : List Expression) (state : CheckState) :
    (answer (expressions arena found) state).map Prod.fst ⊆ Expression.idsOfAll found := by
  induction found generalizing state with
  | nil => exact List.nil_subset _
  | cons first rest ih =>
    have later := ih (stateAfter (expression arena first) state)
    exact List.cons_subset.mpr ⟨List.mem_append_left _ first.id_mem_ids,
      List.subset_append_of_subset_right _ later⟩

theorem yields_literal {found : Expression} {type : TypeId}
    (derives : ∀ context final, found.Derives final context type) :
    Yields Eq [found.id] [found.id] (typed found.id type) fun context type _ final =>
      found.HasType final context type := by
  refine yields_typed.imp ?_
  rintro context _ _ final ⟨rfl, noted⟩
  exact .noted (derives context final) noted

attribute [local grind =] Expression.ids Expression.idsOfAll LambdaBody.ids Block.ids Statement.ids
  Statement.idsOfAll ElseBranch.ids Declaration.ids signatureIds

section

variable (arena : Arena)

mutual

theorem yields_expression (found : Expression) (clean : found.Clean allowed) :
    Yields Eq found.ids found.ids (expression arena found) fun context type _ final =>
      found.HasType final context type := by
  cases found with
  | number id value => exact yields_literal fun _ _ => .number
  | string id value => exact yields_literal fun _ _ => .string
  | boolean id value => exact yields_literal fun _ _ => .boolean
  | unit id => exact yields_literal fun _ _ => .unit
  | stray id => simp [Expression.Clean] at clean
  | identifier id name =>
    refine yields_identifier.imp ?_
    rintro _ type _ final ⟨⟨binding, bound, hasType, resolved⟩, noted⟩
    exact .noted (.identifier bound hasType resolved) noted
  | binary id operator left right =>
    refine .within (.next (yields_expression left clean.1) fun _ =>
      .next (yields_expression right clean.2) fun _ =>
      .next yields_binary fun _ => yields_typed.imp ?_) (by grind)
    rintro _ _ _ final ⟨rfl, noted⟩ rule typedRight typedLeft
    exact .noted (.binary typedLeft typedRight rule) noted
  | unary id operator operand =>
    refine .within (.next (yields_expression operand clean) fun _ =>
      .next yields_unary fun _ => yields_typed.imp ?_) (by grind)
    rintro _ _ _ final ⟨rfl, noted⟩ ⟨rfl, rule⟩ typed
    exact .noted (.unary typed rule) noted
  | call id callee arguments =>
    refine .within (.next (yields_expression callee clean.1) fun _ =>
      .nextAnswer (·.map Prod.fst ⊆ Expression.idsOfAll arguments)
        (nodes_expressions arena arguments) (yields_expressions arguments clean.2)
        fun _ inside => .next (yields_call inside) fun _ => yields_typed.imp ?_) (by grind)
    rintro _ _ _ final ⟨rfl, noted⟩ rule typedArguments typedCallee
    exact .noted (.call typedCallee typedArguments rule) noted
  | member id object name =>
    refine .within (.next (yields_expression object clean.1) fun _ =>
      .next yields_member fun _ => yields_typed.imp ?_) (by grind)
    rintro _ _ _ final ⟨rfl, noted⟩ rule typed
    exact .noted (.member typed rule) noted
  | lambda id parameters result body =>
    refine .within (.next (yields_parameterTypes parameters clean.1.parameters) fun types =>
      .next (yields_resolveOption result clean.1.result) fun declared =>
      .next (yields_lambdaBody body clean.2) fun _ =>
      .next yields_functionType fun _ => yields_typed.imp ?_) (by grind)
    rintro _ _ _ final ⟨rfl, noted⟩ ⟨_, shape⟩ typed denotes areTypes
    exact .noted (.lambda ⟨areTypes, denotes⟩ typed shape) noted

theorem yields_expressions (found : List Expression)
    (clean : Expression.CleanAll allowed found) :
    Yields Eq (Expression.idsOfAll found) (Expression.idsOfAll found) (expressions arena found)
      fun context types _ final =>
        Expression.HaveTypes final context found (types.map Prod.snd) := by
  cases found with
  | nil => exact .pure fun _ _ => .nil
  | cons first rest =>
    exact .within (.next (yields_expression first clean.1) fun _ =>
      .next (yields_expressions rest clean.2) fun _ =>
      .pure fun _ _ typedRest typedFirst => .cons typedFirst typedRest) (by grind)

theorem yields_lambdaBody {id : NodeId} {parameters : List Parameter}
    {types : List TypeId} {declared : Option TypeId} (body : LambdaBody)
    (clean : body.Clean allowed) :
    Yields Eq (id :: body.ids) body.ids (lambdaBody arena id parameters types declared body)
      fun context type _ final =>
        body.HasType final context parameters types declared type := by
  cases body with
  | expression body =>
    have inner : Yields Context.Widens body.ids body.ids (expression arena body)
        fun context type _ final => body.HasType final context type :=
      (yields_expression body clean).settle fun _ _ _ typed => typed
    cases declared with
    | none =>
      refine .within (.next inner.inFunction fun _ => .pure ?_) (by grind)
      exact fun _ _ typed => .inferred typed
    | some expected =>
      have node := body.id_mem_ids
      exact .within (.next inner.inFunction fun _ => .next yields_expectReturn fun _ =>
        .pure fun _ _ fits typed => .written typed fits) (by grind)
  | block body =>
    exact .within (.next (yields_functionBlock (yields_blockStatements body clean))
      fun _ => .pure fun _ _ accepted => .block accepted.1 accepted.2) (by grind)

theorem yields_blockStatements (body : Block) (clean : body.Clean allowed) :
    Yields Context.Widens body.ids body.ids (blockStatements arena body)
      fun context _ _ final => body.Accepted final context := by
  cases body with
  | stray id => exact absurd clean (by simp [Block.Clean])
  | statements id found =>
    refine .within (.bind (yields_declareFunctions found clean) fun _ context =>
      .bind (yields_statements found clean) fun _ entered => yields_order.settle ?_)
      (by grind)
    exact fun _ _ _ _ accepted declares => .statements declares accepted

theorem yields_statements (found : List Statement)
    (clean : Statement.CleanAll allowed found) :
    Yields Context.Widens (Statement.idsOfAll found) (Statement.idsOfAll found)
      (statements arena found)
      fun context _ last final => Statement.AllAccepted final context found last := by
  cases found with
  | nil => exact .pure fun _ _ => .nil
  | cons first rest =>
    exact .within (.bind (yields_statement first clean.1).inStatement fun _ context =>
      (yields_statements rest clean.2).imp fun _ _ _ _ acceptedRest acceptedFirst =>
        .cons acceptedFirst acceptedRest) (by grind)

theorem yields_statement (found : Statement) (clean : found.Clean allowed) :
    Yields Context.Widens found.ids found.ids (statement arena found)
      fun context _ last final => found.Accepted final context last := by
  cases found with
  | stray id => exact absurd clean (by simp [Statement.Clean])
  | declaration declared =>
    obtain ⟨isLocal, clean⟩ := clean
    cases declared with
    | value id mutable name written initial =>
      have node := initial.id_mem_ids
      exact .within (.next (yields_expression initial clean.2.2) fun _ =>
        .next (yields_initialised clean.2.1) fun _ => yields_declare.imp
          fun _ _ _ _ defined rule typed => .value typed rule defined) (by grind)
    | function id name parameters result body =>
      refine .within (.inUnit ((yields_declaredFunction clean.2.1
        (yields_blockStatements body clean.2.2)).settle ?_)) (by grind)
      rintro _ _ final ⟨types, resultType, denotes, accepted, returned⟩
      exact .function denotes accepted returned
    | classType id name parameters members => simp [Declaration.isLocal] at isLocal
    | stray id => exact absurd clean (by simp [Declaration.Clean])
  | expression id value =>
    exact .within (.next (yields_expression value clean) fun _ =>
      .pure fun _ _ typed => .expression typed) (by grind)
  | returnNothing id =>
    refine .within (yields_returned.settle ?_) (by grind)
    rintro _ _ final ⟨expected, isExpected, fits⟩
    exact .returnNothing isExpected fits
  | returnValue id value =>
    have node := value.id_mem_ids
    refine .within (.next (yields_expression value clean) fun _ =>
      yields_returned.settle ?_) (by grind)
    rintro _ _ final ⟨expected, isExpected, fits⟩ typed
    exact .returnValue typed isExpected fits
  | conditional id test thenBlock otherwise =>
    have node := test.id_mem_ids
    exact .within (.next (yields_expression test clean.1) fun _ =>
      .next yields_condition fun _ =>
      .next (yields_blockStatements thenBlock clean.2.1).inScope fun _ =>
      (yields_elseBranch otherwise clean.2.2).settle
        fun _ _ _ acceptedElse acceptedThen fits typed =>
          .conditional typed fits acceptedThen acceptedElse) (by grind)
  | loop id test body =>
    have node := test.id_mem_ids
    exact .within (.next (yields_expression test clean.1) fun _ =>
      .next yields_condition fun _ =>
      (yields_blockStatements body clean.2).inScope.settle fun _ _ _ accepted fits typed =>
        .loop typed fits accepted) (by grind)
  | assignment id target value =>
    have node := value.id_mem_ids
    refine .within (.next (yields_expression value clean.2) fun _ =>
      yields_assignment.settle ?_) (by grind)
    rintro _ _ final ⟨binding, expected, isBound, mutable, isTyped, fits⟩ typed
    exact .assignment typed isBound mutable isTyped fits

theorem yields_elseBranch (found : ElseBranch) (clean : found.Clean allowed) :
    Yields Eq found.ids found.ids (elseBranch arena found) fun context _ _ final =>
      found.Accepted final context := by
  cases found with
  | nothing => exact .pure fun _ _ => .nothing
  | block block =>
    exact (yields_blockStatements block clean).inScope.imp fun _ _ _ _ => .block
  | statement nested =>
    obtain ⟨isConditional, clean⟩ := clean
    cases nested <;> simp only [Statement.isConditional] at isConditional
    case conditional id test thenBlock otherwise =>
      have node := test.id_mem_ids
      exact .within (.next (yields_expression test clean.1) fun _ =>
        .next yields_condition fun _ =>
        .next (yields_blockStatements thenBlock clean.2.1).inScope fun _ =>
        (yields_elseBranch otherwise clean.2.2).imp
          fun _ _ _ _ acceptedElse acceptedThen fits typed =>
            .statement (.conditional typed fits acceptedThen acceptedElse)) (by grind)
    all_goals simp at isConditional

end

end

end Check

end Toolshed
