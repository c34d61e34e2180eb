import Toolshed.Proofs.Syntax.Clean
import Toolshed.Proofs.Typing.Likeness

namespace Toolshed

/-!
# Checks that agree

From states that are alike a check gets to states and answers that are alike, for
the types made on the way too.
-/

open Likeness (Within Alike Lawful strict same)

variable {World : Type} [Likeness World] [Lawful World] {world later : World}
variable {type image : TypeId}

namespace Check

variable {α β : Type} [Paired α] [Paired β] {left right : Check α}

/-- From alike states two checks get to alike answers and alike states. -/
def Agree (world : World) (left right : Check α) : Prop :=
  ∀ state made : CheckState,
    state.Alike world made →
    ∃ later,
      Within world later ∧
        (stateAfter left state).Alike later (stateAfter right made) ∧
        Alike later (answer left state) (answer right made)

namespace Agree

/-- Checks that only answer agree if their answers are alike. -/
theorem pure {value image : α} (alike : Alike world value image) :
    Agree world (Pure.pure value) (Pure.pure image) :=
  fun _ _ states => ⟨world, Lawful.refl world, states, alike⟩

/-- Agreeing checks go on to agree, in a world that may have grown. -/
theorem bind {next madeNext : α → Check β} (first : Agree world left right)
    (second :
      ∀ {later value image},
        Within world later →
        Alike later value image →
        Agree later (next value) (madeNext image)) :
    Agree world (left >>= next) (right >>= madeNext) := by
  intro state made states
  obtain ⟨later, within, states, answers⟩ := first state made states
  obtain ⟨last, more, states, answers⟩ := second within answers _ _ states
  exact ⟨last, Lawful.trans within more, states, answers⟩

omit [Lawful World] in
/-- Checks that look at the state agree if they do so for alike states. -/
theorem get {next madeNext : CheckState → Check β}
    (second :
      ∀ {state made},
        CheckState.Alike world state made →
        Agree world (next state) (madeNext made)) :
    Agree world (MonadState.get >>= next) (MonadState.get >>= madeNext) :=
  fun state made states => second states state made states

/-- Changes that keep states alike agree. -/
theorem change {change madeChange : CheckState → CheckState}
    (changes :
      ∀ {state made},
        state.Alike world made →
        (change state).Alike world (madeChange made)) :
    Agree world (modify change : Check Unit) (modify madeChange) :=
  fun _ _ states => ⟨world, Lawful.refl world, changes states, rfl⟩

theorem next {α : Type} {left right : Check α} {next madeNext : α → Check β}
    (first : @Agree World _ α (.same α) world left right)
    (second : ∀ {later} value, Within world later → Agree later (next value) (madeNext value)) :
    Agree world (left >>= next) (right >>= madeNext) :=
  @Agree.bind World _ _ world α β (.same α) _ left right _ _ first fun within same => by
    obtain rfl := same
    exact second _ within

end Agree

/-- A check without types in it agrees with itself. -/
abbrev Portable (World : Type) [Likeness World] (check : Check α) : Prop :=
  ∀ {world : World}, Agree world check check

variable {fault : Fault} {node : NodeId} {name : String} {binding madeBinding : Binding}
variable {types images : List TypeId} {other otherImage : TypeId} {allowed : String → Prop}
variable {found madeFound : List (NodeId × TypeId)} {returns : Bool} {parameters : List Parameter}
variable {valueNode : NodeId} {body : Check Unit}

/-- A fault is noted in both states. -/
theorem portable_report : Portable World (report fault node) :=
  .change fun states => states.report _

theorem portable_failed : Portable World (failed fault node) := by
  intro world state made states
  obtain ⟨later, within, registries, unknown⟩ := Lawful.fail states.registry
  exact ⟨later, within, (states.report _).withRegistry within (by simp) registries, unknown⟩

/-- Types that cannot be told apart have the same description. -/
theorem agree_describe (alike : same world type image) :
    Agree world (describe type) (describe image) :=
  .get fun states => .pure (Lawful.describe states.registry alike)

/-- A type is made in the registries, and nothing else is changed. -/
theorem Agree.make {make : Registry → TypeId × Registry} {madeMake : Registry → TypeId × Registry}
    (makes :
      ∀ {left right},
        Likeness.registries world left right →
        Likeness.Makes world Likeness.types (make left) (madeMake right)) :
    Agree world (modifyGet fun state =>
        ((make state.registry).1, { state with registry := (make state.registry).2 }))
      (modifyGet fun state =>
        ((madeMake state.registry).1, { state with registry := (madeMake state.registry).2 })) := by
  intro state made states
  obtain ⟨later, within, quiet, registries, types⟩ := makes states.registry
  exact ⟨later, within,
    states.withRegistry within (fun isFaulty => states.faulty (quiet isFaulty)) registries, types⟩

theorem agree_functionType (parameters : Alike world types images)
    (result : Alike world type image) :
    Agree world (functionType types type) (functionType images image) :=
  .make fun registries => Lawful.function registries parameters result

theorem portable_lookup : Portable World (lookup name) :=
  .get fun states => .pure (Context.alike_lookup states.context name)

theorem agree_define (bindings : Alike world binding madeBinding) :
    Agree world (define name binding) (define name madeBinding) := by
  intro state made states
  obtain ⟨free, contexts⟩ := Context.alike_define states.context name bindings
  exact ⟨world, Lawful.refl world, { states with context := contexts }, free⟩

/-- A name is free in both scopes or taken in both. -/
theorem agree_declare (bindings : Alike world binding madeBinding) :
    Agree world (declare name binding node) (declare name madeBinding node) :=
  .next (agree_define bindings) fun _ _ => by
    split
    · exact .pure rfl
    · exact portable_report

theorem agree_setType (alike : Alike world type image) :
    Agree world (setType name type) (setType name image) :=
  .change fun states =>
    { states with context := Context.alike_setType states.context name alike }

omit [Lawful World] in
/-- Scopes that say the same about `return` are opened and closed. -/
theorem agree_inScope {kind madeKind : ScopeKind}
    (kinds : Paired.Alike (same world) kind.returning madeKind.returning)
    (inner : Agree world left right) :
    Agree world (inScope kind left) (inScope madeKind right) := by
  intro state made states
  obtain ⟨later, within, states, answers⟩ :=
    inner { state with context := state.context.push kind }
      { made with context := made.context.push madeKind }
      { states with context := ⟨⟨kinds, .nil⟩, states.context.scopes⟩ }
  exact ⟨later, within, { states with context := Context.alike_pop states.context }, answers⟩

omit [Lawful World] in
theorem agree_inUnit {owner : NodeId} (inner : Agree world left right) :
    Agree world (inUnit owner left) (inUnit owner right) := by
  intro state made states
  obtain ⟨later, within, inside, answers⟩ :=
    inner { state with units := [owner] } { made with units := [owner] }
      { states with units := rfl }
  exact ⟨later, within, { inside with units := states.units }, answers⟩

omit [Lawful World] in
theorem agree_inStatement {statement : NodeId} (inner : Agree world left right) :
    Agree world (inStatement statement left) (inStatement statement right) := by
  intro state made states
  obtain ⟨later, within, inside, answers⟩ :=
    inner { state with units := state.units ++ [statement] }
      { made with units := made.units ++ [statement] }
      { states with units := by rw [states.units] }
  exact ⟨later, within, { inside with units := states.units }, answers⟩

theorem agree_recordUse (bindings : Alike world binding madeBinding) :
    Agree world (recordUse binding node) (recordUse madeBinding node) :=
  .change fun states => by
    rw [bindings.2.2]
    split
    · exact states
    · exact { states with uses := by simp only [states.units, states.uses] }

theorem agree_typed (alike : Alike world type image) :
    Agree world (typed node type) (typed node image) := by
  intro state made states
  exact ⟨world, Lawful.refl world, { states with types := .cons ⟨rfl, alike⟩ states.types }, alike⟩

/-- The order of initialisation reads only the log, which is the same. -/
theorem portable_order {arena : Arena} {steps : List NodeId} :
    Portable World (order arena steps) :=
  .change fun states =>
    { states with
      diagnostics := by simp only [states.diagnostics, states.uses]
      faulty := fun isFaulty => by simp [states.faulty isFaulty] }

/-- What a written type denotes is looked up or found in both states. -/
theorem agree_denoting {find madeFind : Check TypeId} (inner : Agree world find madeFind) :
    Agree world (denoting node find) (denoting node madeFind) :=
  .get fun {state made} states => by
    have known : Alike world (state.denotations.get? node) (made.denotations.get? node) :=
      Paired.lookup states.denotations node
    generalize state.denotations.get? node = found, made.denotations.get? node = madeFound at known
    cases known with
    | some alike => exact .pure alike
    | none =>
      refine .bind inner fun within alike => .next (.change fun states => ?_) fun _ within =>
        .pure (within.keep alike)
      exact { states with denotations := .cons ⟨rfl, alike⟩ states.denotations }

theorem portable_namedType : Portable World (namedType node name) :=
  .bind portable_lookup fun {later _ _} _ found => by
    cases found with
    | none => exact portable_failed
    | @some binding madeBinding bindings =>
      refine .get fun {state made} states => ?_
      have known : Alike later (binding.type.bind state.registry.denoted?)
          (madeBinding.type.bind made.registry.denoted?) := by
        have types := bindings.1
        generalize binding.type = type, madeBinding.type = image at types
        cases types with
        | none => exact .none
        | some alike => exact Lawful.denoted? states.registry alike
      generalize binding.type.bind _ = found, madeBinding.type.bind _ = madeFound at known
      cases known with
      | none => exact portable_failed
      | some alike => exact .pure alike

mutual

/-- Written types are resolved alike. -/
theorem portable_resolve :
    (written : TypeExpression) → (strict World → written.Clean allowed) →
      Portable World (resolve written)
  | .named _ _, _ => agree_denoting portable_namedType
  | .function _ parameters result, clean =>
    agree_denoting <| .bind (portable_resolveAll parameters fun strict => (clean strict).1)
      fun _ types =>
        .bind (portable_resolve result fun strict => (clean strict).2) fun within type =>
          agree_functionType (within.keep types) type
  | .stray _, clean => agree_denoting (.pure ((Lawful.unknown _).2 clean))

theorem portable_resolveAll :
    (written : List TypeExpression) → (strict World → TypeExpression.CleanAll allowed written) →
      Portable World (resolveAll written)
  | [], _ => .pure .nil
  | first :: rest, clean =>
    .bind (portable_resolve first fun strict => (clean strict).1) fun _ type =>
      .bind (portable_resolveAll rest fun strict => (clean strict).2) fun within types =>
        .pure (.cons (within.keep type) types)

end

theorem portable_resolveOption (written : Option TypeExpression)
    (clean : strict World → ∀ type ∈ written, type.Clean allowed) :
    Portable World (resolveOption written) := by
  cases written with
  | none => exact .pure .none
  | some written =>
    exact .bind (portable_resolve written fun strict => clean strict written rfl) fun _ type =>
      .pure (.some type)

theorem portable_parameterTypes :
    (parameters : List Parameter) →
      (strict World → ∀ parameter ∈ parameters, parameter.Clean allowed) →
      Portable World (parameterTypes parameters)
  | [], _ => .pure .nil
  | .named _ _ type :: rest, clean =>
    .bind (portable_resolve type fun strict => (clean strict _ List.mem_cons_self).2) fun _ type =>
      .bind (portable_parameterTypes rest fun strict => (List.forall_mem_cons.mp (clean strict)).2)
        fun within types => .pure (.cons (within.keep type) types)
  | .stray _ :: rest, clean =>
    .bind (portable_parameterTypes rest fun strict => (List.forall_mem_cons.mp (clean strict)).2)
      fun _ types => .pure <|
        .cons ((Lawful.unknown _).2 fun strict => clean strict _ List.mem_cons_self) types

/-- The types of parameters and result make alike function types. -/
theorem portable_signature (parameters : List Parameter) (result : Option TypeExpression)
    (clean : strict World → CleanSignature allowed parameters result) :
    Portable World (signature parameters result) :=
  .bind (portable_parameterTypes parameters fun strict => (clean strict).parameters) fun _ types =>
    .bind (portable_resolveOption result fun strict => (clean strict).result) fun within type =>
      agree_functionType (within.keep types) (Paired.getD type Likeness.unit)

theorem agree_bindParameters (parameters : List Parameter) (alike : Alike world types images) :
    Agree world (bindParameters parameters types) (bindParameters parameters images) := by
  induction parameters generalizing world types images with
  | nil => exact .pure rfl
  | cons parameter rest ih =>
    cases alike with
    | nil => cases parameter <;> exact .pure rfl
    | cons type types =>
      cases parameter with
      | named id name written =>
        exact .next (agree_define ⟨.some type, rfl, rfl⟩) fun _ within => ih (within.keep types)
      | stray id => exact ih types

/-- A body is checked with parameters of alike types. -/
theorem agree_inFunction (parameters : List Parameter) (alike : Alike world types images)
    (result : same world type image)
    (body : ∀ {later}, Within world later → Agree later left right) :
    Agree world (inFunction parameters types type left)
      (inFunction parameters images image right) :=
  agree_inScope ⟨.some result, rfl⟩ <|
    .next (agree_bindParameters parameters alike) fun _ within => body within

/-- Types fit one another in both registries or in neither. -/
theorem agree_unlessFits {report madeReport : Check Unit} (found : same world type image)
    (expected : same world other otherImage) (reports : Agree world report madeReport) :
    Agree world (unless type.fits other do report)
      (unless image.fits otherImage do madeReport) := by
  rw [Likeness.fits_eq found expected]
  split
  · exact .pure rfl
  · exact reports

/-- A fault about two types is noted with the same descriptions. -/
theorem agree_mismatch {fault : String → String → Fault} (first : same world type image)
    (second : same world other otherImage) :
    Agree world (do report (fault (← describe type) (← describe other)) node)
      (do report (fault (← describe image) (← describe otherImage)) node) :=
  .next (agree_describe first) fun _ within =>
    .next (agree_describe (Lawful.same_mono within second)) fun _ _ => portable_report

theorem agree_mismatchThen {fault : String → String → Fault} {next madeNext : Check α}
    (expected : same world type image) (found : same world other otherImage)
    (second : ∀ {later}, Within world later → Agree later next madeNext) :
    Agree world
      (do unless other.fits type do report (fault (← describe type) (← describe other)) node
          next)
      (do unless otherImage.fits image do
            report (fault (← describe image) (← describe otherImage)) node
          madeNext) := by
  rw [Likeness.fits_eq found expected]
  split
  · exact second (Lawful.refl world)
  · exact .next (agree_describe expected) fun _ within =>
      .next (agree_describe (Lawful.same_mono within found)) fun _ more =>
        .next portable_report fun _ most => second (Lawful.trans (Lawful.trans within more) most)

theorem agree_expectReturn (expected : same world type image)
    (found : same world other otherImage) :
    Agree world (expectReturn type other node) (expectReturn image otherImage node) :=
  agree_unlessFits found expected (agree_mismatch expected found)

theorem agree_expectReturns (result : Alike world type image) :
    Agree world (expectReturns type returns node) (expectReturns image returns node) := by
  unfold expectReturns
  simp only [ne_eq, Likeness.eq_iff result Likeness.unit, Likeness.eq_unknown_iff result]
  split
  · exact .next (agree_describe (Lawful.same_of_types result)) fun _ _ => portable_report
  · exact .pure rfl

theorem portable_identifier : Portable World (identifier node name) :=
  .bind portable_lookup fun _ found => by
    cases found with
    | none => exact portable_failed
    | @some binding madeBinding bindings =>
      refine .next (.change fun states => ?_) fun _ within =>
        .next (agree_recordUse (within.keep bindings)) fun _ more => ?_
      · exact { states with resolutions := by rw [states.resolutions, bindings.2.1] }
      · have types := more.keep (within.keep bindings.1)
        generalize binding.type = type, madeBinding.type = image at types
        cases types with
        | none => exact portable_failed
        | some alike => exact .pure alike

/-- An operator has alike results for alike operands. -/
theorem alike_result? (operator : BinaryOp) (left : Alike world type image)
    (right : Alike world other otherImage) :
    Alike world (operator.result? type other) (operator.result? image otherImage) := by
  have option {condition : Prop} [Decidable condition] {result : TypeId}
      (alike : Alike world result result) :
      Alike world (if condition then some result else none)
        (if condition then some result else none) := by
    split
    · exact .some alike
    · exact .none
  unfold BinaryOp.result?
  simp only [Likeness.eq_iff left Likeness.number, Likeness.eq_iff right Likeness.number,
    Likeness.eq_iff left Likeness.string, Likeness.eq_iff right Likeness.string,
    Likeness.eq_iff left Likeness.boolean, Likeness.eq_iff right Likeness.boolean,
    Likeness.eq_iff left right]
  cases operator with
  | add =>
    simp only
    split
    · exact .some Likeness.number
    · exact option Likeness.string
  | subtract | multiply | divide | remainder => exact option Likeness.number
  | _ => exact option Likeness.boolean

/-- A type that is unknown is alike to the unknown type only. -/
theorem alike_unknown (alike : Alike world type image) (unknown : image = .unknown) :
    Alike world TypeId.unknown TypeId.unknown := by
  obtain rfl := unknown
  obtain rfl := (Likeness.eq_unknown_iff alike).mpr rfl
  exact alike

theorem agree_binary {operator : BinaryOp} (left : Alike world type image)
    (right : Alike world other otherImage) :
    Agree world (binary node operator type other) (binary node operator image otherImage) := by
  unfold binary
  simp only [Likeness.eq_unknown_iff left, Likeness.eq_unknown_iff right]
  split
  · next unknown => exact .pure (unknown.elim (alike_unknown left) (alike_unknown right))
  · have result := alike_result? operator left right
    generalize operator.result? type other = found, operator.result? image otherImage = madeFound
      at result
    cases result with
    | some alike => exact .pure alike
    | none =>
      exact .next (agree_describe (Lawful.same_of_types left)) fun _ within =>
        .next (agree_describe (Lawful.same_of_types (within.keep right))) fun _ _ =>
          portable_failed

theorem agree_unary {operator : UnaryOp} (operand : Alike world type image) :
    Agree world (unary node operator type) (unary node operator image) := by
  have expected : Alike world operator.operandType operator.operandType := by
    cases operator
    · exact Likeness.number
    · exact Likeness.boolean
  unfold unary
  simp only [Likeness.eq_unknown_iff operand, Likeness.eq_iff operand expected]
  split
  · exact .pure operand
  · exact .next (agree_describe (Lawful.same_of_types operand)) fun _ _ => portable_failed

/-- Arguments are compared with parameters one by one. -/
theorem agree_arguments {index : Nat} (arguments : Alike world found madeFound)
    (parameters : Paired.Alike (same world) types images) :
    Agree world (Check.arguments index found types) (Check.arguments index madeFound images) := by
  induction found generalizing world index madeFound types images with
  | nil =>
    cases arguments
    exact .pure rfl
  | cons first rest ih =>
    obtain ⟨node, type⟩ := first
    obtain _ | @⟨_, ⟨_, image⟩, _, _, ⟨nodes, found⟩, others⟩ := arguments
    obtain rfl : node = _ := nodes
    cases parameters with
    | nil => exact .pure rfl
    | cons expected types =>
      exact agree_mismatchThen expected (Lawful.same_of_types found) fun within =>
        ih (within.keep others) (Paired.mono (Lawful.same_mono within) types)

/-- Alike functions and arguments give calls of alike types. -/
theorem agree_call (callee : Alike world type image) (arguments : Alike world found madeFound) :
    Agree world (call node type found) (call node image madeFound) := by
  unfold call
  simp only [Likeness.eq_unknown_iff callee]
  split
  · next unknown => exact .pure (alike_unknown callee unknown)
  · refine .get fun {state made} states => ?_
    have known := Lawful.callable? states.registry callee
    generalize callable? state.registry type = signature,
      callable? made.registry image = madeSignature at known
    cases known with
    | none =>
      exact .next (agree_describe (Lawful.same_of_types callee)) fun _ _ => portable_failed
    | some known =>
      obtain ⟨parameters, result⟩ := known
      simp only [← arguments.length_eq, ← parameters.length_eq]
      split
      · exact .next (agree_arguments arguments parameters) fun _ within =>
          .pure (within.keep result)
      · exact .next portable_report fun _ within => .pure (within.keep result)

/-- Alike objects have alike members under a name. -/
theorem alike_member? {left right : Registry} (registries : Likeness.registries world left right)
    (object : Alike world type image) (name : String) :
    Alike world (left.member? type name) (right.member? image name) := by
  have members := Lawful.members registries object
  unfold Registry.member?
  generalize left.object? type = found, right.object? image = madeFound at members
  cases found <;> cases madeFound <;> cases members
  · exact .none
  · next members => exact Paired.member? members name

theorem agree_member (object : Alike world type image) :
    Agree world (member node type name) (member node image name) := by
  unfold member
  simp only [Likeness.eq_unknown_iff object]
  split
  · next unknown => exact .pure (alike_unknown object unknown)
  · refine .get fun {state made} states => ?_
    have found := alike_member? states.registry object name
    generalize state.registry.member? type name = entry,
      made.registry.member? image name = madeEntry at found
    cases found with
    | none =>
      exact .next (agree_describe (Lawful.same_of_types object)) fun _ _ => portable_failed
    | @some entry madeEntry entries =>
      have types : Alike world entry.type madeEntry.type := entries.2.1
      simp only [Option.map_some]
      generalize entry.type = type, madeEntry.type = image at types
      cases types with
      | none => exact portable_failed
      | some alike => exact .pure alike

theorem agree_condition {keyword : Keyword} (found : Alike world type image) :
    Agree world (condition keyword node type) (condition keyword node image) :=
  agree_unlessFits (Lawful.same_of_types found) (Lawful.same_of_types Likeness.boolean) <|
    .next (agree_describe (Lawful.same_of_types found)) fun _ _ => portable_report

theorem agree_returned (found : Alike world type image) :
    Agree world (returned node valueNode type) (returned node valueNode image) :=
  .get fun {state made} states => by
    have results := Scope.alike_returnTypeIn states.context.scopes
    unfold Context.returnType
    generalize Scope.returnTypeIn state.context.scopes = result,
      Scope.returnTypeIn made.context.scopes = madeResult at results
    cases results with
    | none => exact portable_report
    | some expected => exact agree_expectReturn expected (Lawful.same_of_types found)

theorem agree_assignment (found : Alike world type image) :
    Agree world (assignment node name valueNode type) (assignment node name valueNode image) :=
  .bind portable_lookup fun within target => by
    cases target with
    | none => exact portable_report
    | @some binding madeBinding bindings =>
      refine .next (agree_recordUse bindings) fun _ more => ?_
      have types := more.keep bindings.1
      have mutable : binding.isMutable = madeBinding.isMutable := by
        rw [Binding.isMutable, Binding.isMutable, bindings.2.1]
      rw [mutable]
      split
      · generalize binding.type = expected, madeBinding.type = madeExpected at types
        cases types with
        | none => exact portable_report
        | some expected =>
          have found := Lawful.same_of_types (more.keep (within.keep found))
          have expected := Lawful.same_of_types expected
          exact agree_unlessFits found expected (agree_mismatch found expected)
      · exact portable_report

/-- A value has its written type, or else the type of its initial value. -/
theorem agree_initialised {written : Option TypeExpression} (found : Alike world type image)
    (clean : strict World → ∀ type ∈ written, type.Clean allowed) :
    Agree world (initialised name written node type) (initialised name written node image) := by
  cases written with
  | none => exact .pure found
  | some written =>
    exact .bind (portable_resolve written fun strict => clean strict written rfl)
      fun within declared =>
        agree_mismatchThen (Lawful.same_of_types declared)
          (Lawful.same_of_types (within.keep found)) fun more => .pure (more.keep declared)

theorem portable_declareFunctions :
    (statements : List Statement) → (strict World → Statement.CleanAll allowed statements) →
      Portable World (declareFunctions statements)
  | [], _ => .pure rfl
  | .declaration (.function _ _ parameters result _) :: rest, clean =>
    .bind (portable_signature parameters result fun strict => (clean strict).1.2.2.1) fun _ type =>
      .next (agree_declare ⟨.some type, rfl, rfl⟩) fun _ _ =>
        portable_declareFunctions rest fun strict => (clean strict).2
  | .declaration (.value _ _ _ _ _) :: rest, clean
  | .declaration (.classType _ _ _ _) :: rest, clean | .declaration (.stray _) :: rest, clean
  | .expression _ _ :: rest, clean | .returnNothing _ :: rest, clean
  | .returnValue _ _ :: rest, clean | .conditional _ _ _ _ :: rest, clean
  | .loop _ _ _ :: rest, clean | .assignment _ _ _ :: rest, clean | .stray _ :: rest, clean =>
    portable_declareFunctions rest fun strict => (clean strict).2

theorem agree_functionBlock (alike : Alike world types images) (result : Alike world type image)
    (portable : Portable World body) :
    Agree world (functionBlock node parameters types type returns body)
      (functionBlock node parameters images image returns body) :=
  .next (agree_inFunction parameters alike (Lawful.same_of_types result) fun _ => portable)
    fun _ within => agree_expectReturns (within.keep result)

theorem portable_declaredFunction {result : Option TypeExpression}
    (clean : strict World → CleanSignature allowed parameters result)
    (portable : Portable World body) :
    Portable World (declaredFunction node parameters result returns body) :=
  .bind (portable_parameterTypes parameters fun strict => (clean strict).parameters) fun _ types =>
    .bind (portable_resolveOption result fun strict => (clean strict).result) fun within type =>
      agree_functionBlock (within.keep types) (Paired.getD type Likeness.unit) portable

mutual

/-- Every expression is checked alike, by recursion on the tree. -/
theorem portable_expression (arena : Arena) :
    (e : Expression) → (strict World → e.Clean allowed) → Portable World (expression arena e)
  | .number _ _, _ => agree_typed Likeness.number
  | .string _ _, _ => agree_typed Likeness.string
  | .boolean _ _, _ => agree_typed Likeness.boolean
  | .unit _, _ => agree_typed Likeness.unit
  | .identifier _ _, _ => .bind portable_identifier fun _ type => agree_typed type
  | .binary _ _ left right, clean =>
    .bind (portable_expression arena left fun strict => (clean strict).1) fun _ leftType =>
      .bind (portable_expression arena right fun strict => (clean strict).2)
        fun within rightType =>
          .bind (agree_binary (within.keep leftType) rightType) fun _ type => agree_typed type
  | .unary _ _ operand, clean =>
    .bind (portable_expression arena operand clean) fun _ operandType =>
      .bind (agree_unary operandType) fun _ type => agree_typed type
  | .call _ callee arguments, clean =>
    .bind (portable_expression arena callee fun strict => (clean strict).1) fun _ calleeType =>
      .bind (portable_expressions arena arguments fun strict => (clean strict).2)
        fun within types =>
          .bind (agree_call (within.keep calleeType) types) fun _ type => agree_typed type
  | .member _ object _, clean =>
    .bind (portable_expression arena object fun strict => (clean strict).1) fun _ objectType =>
      .bind (agree_member objectType) fun _ type => agree_typed type
  | .lambda _ parameters result body, clean =>
    .bind (portable_parameterTypes parameters fun strict => (clean strict).1.parameters)
      fun _ types =>
        .bind (portable_resolveOption result fun strict => (clean strict).1.result)
          fun within declared =>
            .bind (agree_lambdaBody arena body (fun strict => (clean strict).2) (within.keep types)
              declared) fun more resultType =>
                .bind (agree_functionType (more.keep (within.keep types)) resultType)
                  fun _ type => agree_typed type
  | .stray _, clean => agree_typed ((Lawful.unknown _).2 clean)

theorem portable_expressions (arena : Arena) :
    (found : List Expression) → (strict World → Expression.CleanAll allowed found) →
      Portable World (expressions arena found)
  | [], _ => .pure .nil
  | first :: rest, clean =>
    .bind (portable_expression arena first fun strict => (clean strict).1) fun _ type =>
      .bind (portable_expressions arena rest fun strict => (clean strict).2) fun within types =>
        .pure (.cons ⟨rfl, within.keep type⟩ types)

/-- The body of a lambda is checked with alike types around it. -/
theorem agree_lambdaBody {world : World} {types images : List TypeId}
    {parameters : List Parameter} {declared madeDeclared : Option TypeId} {node : NodeId}
    (arena : Arena) :
    (body : LambdaBody) → (strict World → body.Clean allowed) → Alike world types images →
      Alike world declared madeDeclared →
      Agree world (lambdaBody arena node parameters types declared body)
        (lambdaBody arena node parameters images madeDeclared body)
  | .expression body, clean, types, declared =>
    .bind (agree_inFunction parameters types
      (Paired.getD (Paired.mono Lawful.same_of_types declared) (Lawful.unknown world).1)
      fun _ => portable_expression arena body clean) fun within found => by
        cases declared with
        | none => exact .pure found
        | some expected =>
          have expected := within.keep expected
          exact .next (agree_expectReturn (Lawful.same_of_types expected)
            (Lawful.same_of_types found)) fun _ more => .pure (more.keep expected)
  | .block body, clean, types, declared =>
    have result := Paired.getD declared Likeness.unit
    .next (agree_functionBlock types result (portable_blockStatements arena body clean))
      fun _ within => .pure (within.keep result)

theorem portable_blockStatements (arena : Arena) :
    (block : Block) → (strict World → block.Clean allowed) →
      Portable World (blockStatements arena block)
  | .statements _ found, clean =>
    .next (portable_declareFunctions found clean) fun _ _ =>
      .next (portable_statements arena found clean) fun _ _ => portable_order
  | .stray _, _ => .pure rfl

theorem portable_statements (arena : Arena) :
    (found : List Statement) → (strict World → Statement.CleanAll allowed found) →
      Portable World (statements arena found)
  | [], _ => .pure rfl
  | first :: rest, clean =>
    .next (agree_inStatement (portable_statement arena first fun strict => (clean strict).1))
      fun _ _ => portable_statements arena rest fun strict => (clean strict).2

/-- Every statement is checked alike. -/
theorem portable_statement (arena : Arena) :
    (found : Statement) → (strict World → found.Clean allowed) →
      Portable World (statement arena found)
  | .declaration declared, clean =>
    portable_localDeclaration arena declared fun strict => (clean strict).2
  | .expression _ found, clean => .bind (portable_expression arena found clean) fun _ _ => .pure rfl
  | .returnNothing _, _ => agree_returned Likeness.unit
  | .returnValue _ value, clean =>
    .bind (portable_expression arena value clean) fun _ found => agree_returned found
  | .conditional _ test thenBlock otherwise, clean =>
    .bind (portable_expression arena test fun strict => (clean strict).1) fun _ found =>
      .next (agree_condition found) fun _ _ =>
        .next (agree_inScope ⟨.none, rfl⟩
          (portable_blockStatements arena thenBlock fun strict => (clean strict).2.1)) fun _ _ =>
            portable_elseBranch arena otherwise fun strict => (clean strict).2.2
  | .loop _ test body, clean =>
    .bind (portable_expression arena test fun strict => (clean strict).1) fun _ found =>
      .next (agree_condition found) fun _ _ =>
        agree_inScope ⟨.none, rfl⟩
          (portable_blockStatements arena body fun strict => (clean strict).2)
  | .assignment _ _ value, clean =>
    .bind (portable_expression arena value fun strict => (clean strict).2) fun _ found =>
      agree_assignment found
  | .stray _, _ => .pure rfl

theorem portable_elseBranch (arena : Arena) :
    (branch : ElseBranch) → (strict World → branch.Clean allowed) →
      Portable World (elseBranch arena branch)
  | .nothing, _ => .pure rfl
  | .block block, clean => agree_inScope ⟨.none, rfl⟩ (portable_blockStatements arena block clean)
  | .statement found, clean => portable_statement arena found fun strict => (clean strict).2

theorem portable_localDeclaration (arena : Arena) :
    (declared : Declaration) → (strict World → declared.Clean allowed) →
      Portable World (localDeclaration arena declared)
  | .value _ _ _ _ initial, clean =>
    .bind (portable_expression arena initial fun strict => (clean strict).2.2) fun _ found =>
      .bind (agree_initialised found fun strict => (clean strict).2.1) fun _ type =>
        agree_declare ⟨.some type, rfl, rfl⟩
  | .function _ _ _ _ body, clean =>
    agree_inUnit (portable_declaredFunction (fun strict => (clean strict).2.1)
      (portable_blockStatements arena body fun strict => (clean strict).2.2))
  | .classType _ _ _ _, _ | .stray _, _ => .pure rfl

end

end Check

end Toolshed
