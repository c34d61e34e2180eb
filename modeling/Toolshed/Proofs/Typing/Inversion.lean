import Toolshed.Proofs.Typing.Judgment

namespace Toolshed

/-!
# What typed code is made of

Each form of code has one typing rule, so the parts of typed code are typed.
-/

variable {final : CheckState} {context after : Context} {id : NodeId} {type : TypeId}

namespace Expression.HasType

theorem identifier {name : String}
    (typed : (Expression.identifier id name).HasType final context type) :
    ∃ binding,
      context.lookup name = some binding ∧
        binding.type = some type ∧
        final.resolutions.get? id = some binding.origin.resolution := by
  obtain ⟨derives, _⟩ := typed
  cases derives with
  | identifier bound isTyped resolved => exact ⟨_, bound, isTyped, resolved⟩

theorem binary {operator : BinaryOp} {left right : Expression}
    (typed : (Expression.binary id operator left right).HasType final context type) :
    ∃ leftType rightType,
      left.HasType final context leftType ∧
        right.HasType final context rightType ∧
        (leftType = .unknown ∨ rightType = .unknown ∨
          operator.result? leftType rightType = some type) := by
  obtain ⟨derives, _⟩ := typed
  cases derives with
  | binary typedLeft typedRight rule => exact ⟨_, _, typedLeft, typedRight, rule⟩

theorem unary {operator : UnaryOp} {operand : Expression}
    (typed : (Expression.unary id operator operand).HasType final context type) :
    operand.HasType final context type ∧ (type = .unknown ∨ type = operator.operandType) := by
  obtain ⟨derives, _⟩ := typed
  cases derives with
  | unary typedOperand rule => exact ⟨typedOperand, rule⟩

theorem call {callee : Expression} {arguments : List Expression}
    (typed : (Expression.call id callee arguments).HasType final context type) :
    ∃ calleeType types,
      callee.HasType final context calleeType ∧
        Expression.HaveTypes final context arguments types ∧
        CallRule final.registry calleeType types type := by
  obtain ⟨derives, _⟩ := typed
  cases derives with
  | call typedCallee typedArguments rule => exact ⟨_, _, typedCallee, typedArguments, rule⟩

theorem member {object : Expression} {name : String}
    (typed : (Expression.member id object name).HasType final context type) :
    ∃ objectType,
      object.HasType final context objectType ∧
        (objectType = .unknown ∨
          (final.registry.member? objectType name).map Member.type = some (some type)) := by
  obtain ⟨derives, _⟩ := typed
  cases derives with
  | member typedObject rule => exact ⟨_, typedObject, rule⟩

theorem lambda {parameters : List Parameter} {result : Option TypeExpression} {body : LambdaBody}
    (typed : (Expression.lambda id parameters result body).HasType final context type) :
    ∃ types declared resultType,
      SignatureDenotes final parameters result types declared ∧
        body.HasType final context parameters types declared resultType ∧
        final.registry.shape? type = some (.function types resultType) := by
  obtain ⟨derives, _⟩ := typed
  cases derives with
  | lambda denotes typedBody shape => exact ⟨_, _, _, denotes, typedBody, shape⟩

theorem not_stray : ¬ (Expression.stray id).HasType final context type := by
  rintro ⟨derives, _⟩
  cases derives

end Expression.HasType

theorem Expression.HaveTypes.cons_inv {first : Expression} {rest : List Expression}
    {types : List TypeId} (typed : Expression.HaveTypes final context (first :: rest) types) :
    ∃ firstType restTypes,
      types = firstType :: restTypes ∧
        first.HasType final context firstType ∧
        Expression.HaveTypes final context rest restTypes := by
  cases typed with
  | cons typedFirst typedRest => exact ⟨_, _, rfl, typedFirst, typedRest⟩

namespace LambdaBody.HasType

variable {parameters : List Parameter} {types : List TypeId} {declared : Option TypeId}

theorem expression {body : Expression}
    (typed : (LambdaBody.expression body).HasType final context parameters types declared type) :
    ∃ found,
      body.HasType final (context.enter parameters types (declared.getD .unknown)) found ∧
        (declared = none ∧ type = found ∨ declared = some type ∧ found.fits type = true) := by
  cases typed with
  | inferred typedBody => exact ⟨_, typedBody, .inl ⟨rfl, rfl⟩⟩
  | written typedBody fits => exact ⟨_, typedBody, .inr ⟨rfl, fits⟩⟩

theorem block_inv {body : Block}
    (typed : (LambdaBody.block body).HasType final context parameters types declared type) :
    type = declared.getD .unit ∧
      body.Accepted final (context.enter parameters types (declared.getD .unit)) ∧
      (declared.getD .unit = .unit ∨ declared.getD .unit = .unknown ∨ body.returns = true) := by
  cases typed with
  | block accepted returned => exact ⟨rfl, accepted, returned⟩

end LambdaBody.HasType

namespace Block.Accepted

theorem statements_inv {statements : List Statement}
    (accepted : (Block.statements id statements).Accepted final context) :
    ∃ entered left,
      DeclaresFunctions final context statements entered ∧
        Statement.AllAccepted final entered statements left := by
  cases accepted with
  | statements declares accepted => exact ⟨_, _, declares, accepted⟩

theorem not_stray : ¬ (Block.stray id).Accepted final context := by
  rintro ⟨⟩

end Block.Accepted

theorem Statement.AllAccepted.cons_inv {first : Statement} {rest : List Statement}
    (accepted : Statement.AllAccepted final context (first :: rest) after) :
    ∃ next, first.Accepted final context next ∧ Statement.AllAccepted final next rest after := by
  cases accepted with
  | cons acceptedFirst acceptedRest => exact ⟨_, acceptedFirst, acceptedRest⟩

namespace Statement.Accepted

variable {test value : Expression} {body : Block}
variable {name : String} {parameters : List Parameter}

theorem value_inv {mutable : Bool} {written : Option TypeExpression}
    (accepted :
      (Statement.declaration (.value id mutable name written value)).Accepted final context after) :
    ∃ found type,
      value.HasType final context found ∧
        ValueRule final found written type ∧
        context.define name ⟨some type, .declared (.ofMutable mutable), some id⟩ =
          (true, after) := by
  cases accepted with
  | value typed rule defined => exact ⟨_, _, typed, rule, defined⟩

theorem function_inv {result : Option TypeExpression}
    (accepted :
      (Statement.declaration (.function id name parameters result body)).Accepted final context
        after) :
    after = context ∧
      ∃ types resultType,
        SignatureDenotes final parameters result types resultType ∧
          body.Accepted final (context.enter parameters types (resultType.getD .unit)) ∧
          (resultType.getD .unit = .unit ∨ resultType.getD .unit = .unknown ∨
            body.returns = true) := by
  cases accepted with
  | function denotes acceptedBody returned => exact ⟨rfl, _, _, denotes, acceptedBody, returned⟩

theorem expression_inv (accepted : (Statement.expression id value).Accepted final context after) :
    after = context ∧ ∃ type, value.HasType final context type := by
  cases accepted with
  | expression typed => exact ⟨rfl, _, typed⟩

theorem returnValue_inv (accepted : (Statement.returnValue id value).Accepted final context after) :
    after = context ∧
      ∃ found expected,
        value.HasType final context found ∧
          context.returnType = some expected ∧
          found.fits expected = true := by
  cases accepted with
  | returnValue typed expects fits => exact ⟨rfl, _, _, typed, expects, fits⟩

theorem conditional_inv {otherwise : ElseBranch}
    (accepted : (Statement.conditional id test body otherwise).Accepted final context after) :
    after = context ∧
      (∃ found, test.HasType final context found ∧ found.fits .boolean = true) ∧
      body.Accepted final (context.push .block) ∧
      otherwise.Accepted final context := by
  cases accepted with
  | conditional typedTest fits acceptedThen acceptedElse =>
    exact ⟨rfl, ⟨_, typedTest, fits⟩, acceptedThen, acceptedElse⟩

theorem loop_inv (accepted : (Statement.loop id test body).Accepted final context after) :
    after = context ∧
      (∃ found, test.HasType final context found ∧ found.fits .boolean = true) ∧
      body.Accepted final (context.push .block) := by
  cases accepted with
  | loop typedTest fits acceptedBody => exact ⟨rfl, ⟨_, typedTest, fits⟩, acceptedBody⟩

theorem assignment_inv {target : String}
    (accepted : (Statement.assignment id target value).Accepted final context after) :
    after = context ∧
      ∃ binding found expected,
        value.HasType final context found ∧
          context.lookup target = some binding ∧
          binding.isMutable = true ∧
          binding.type = some expected ∧
          found.fits expected = true := by
  cases accepted with
  | assignment typed bound mutable isTyped fits =>
    exact ⟨rfl, _, _, _, typed, bound, mutable, isTyped, fits⟩

theorem not_classType {members : List Declaration} :
    ¬ (Statement.declaration (.classType id name parameters members)).Accepted final context
        after := by
  rintro ⟨⟩

theorem not_strayDeclaration :
    ¬ (Statement.declaration (.stray id)).Accepted final context after := by
  rintro ⟨⟩

theorem not_stray : ¬ (Statement.stray id).Accepted final context after := by
  rintro ⟨⟩

end Statement.Accepted

namespace ElseBranch.Accepted

theorem block_inv {block : Block} (accepted : (ElseBranch.block block).Accepted final context) :
    block.Accepted final (context.push .block) := by
  cases accepted with
  | block accepted => exact accepted

theorem statement_inv {statement : Statement}
    (accepted : (ElseBranch.statement statement).Accepted final context) :
    statement.Accepted final context context := by
  cases accepted with
  | statement accepted => exact accepted

end ElseBranch.Accepted

end Toolshed
