import Mathlib.Data.List.Forall2
import Toolshed.Proofs.Typing.Registry
import Toolshed.Typing.Body

namespace Toolshed

/-!
# Typing judgments

The rules that code without faults obeys, given what is known at the end of a
check.
-/

variable {type : TypeId}

def TypeExpression.Denotes
    (final : CheckState)
    (written : TypeExpression)
    (type : TypeId) : Prop :=
  final.denotations.get? written.id = some type ∧ type ≠ .unknown

def Parameter.Denotes (final : CheckState) : Parameter → TypeId → Prop
  | .named _ _ written, type => written.Denotes final type
  | .stray _, _ => False

structure SignatureDenotes
    (final : CheckState)
    (parameters : List Parameter)
    (result : Option TypeExpression)
    (types : List TypeId)
    (resultType : Option TypeId) : Prop where
  parameters : List.Forall₂ (Parameter.Denotes final) parameters types
  result : Option.Rel (TypeExpression.Denotes final) result resultType

section Stays

variable {state final : CheckState}
variable {written : TypeExpression} {type : TypeId}

theorem TypeExpression.Denotes.mono (denotes : written.Denotes state type)
    (stays :
      ∀ id found,
        state.denotations.get? id = some found →
        final.denotations.get? id = some found) : written.Denotes final type :=
  ⟨stays _ _ denotes.1, denotes.2⟩

theorem TypeExpression.Denotes.unique {other : TypeId} (first : written.Denotes state type)
    (second : written.Denotes state other) : type = other :=
  Option.some.inj (first.1.symm.trans second.1)

theorem Parameter.Denotes.mono {parameter : Parameter} (denotes : parameter.Denotes state type)
    (stays :
      ∀ id found,
        state.denotations.get? id = some found →
        final.denotations.get? id = some found) : parameter.Denotes final type := by
  cases parameter with
  | named id name written => exact TypeExpression.Denotes.mono denotes stays
  | stray id => exact denotes

theorem SignatureDenotes.mono {parameters : List Parameter} {result : Option TypeExpression}
    {types : List TypeId} {resultType : Option TypeId}
    (denotes : SignatureDenotes state parameters result types resultType)
    (stays :
      ∀ id found,
        state.denotations.get? id = some found →
        final.denotations.get? id = some found) :
    SignatureDenotes final parameters result types resultType := by
  refine ⟨denotes.parameters.imp fun _ _ denotes => denotes.mono stays, ?_⟩
  obtain ⟨_, result⟩ := denotes
  cases result with
  | some written => exact .some (written.mono stays)
  | none => exact .none

end Stays

namespace Context

def bindParameters : Context → List Parameter → List TypeId → Context
  | context, .named _ name _ :: rest, type :: types =>
    bindParameters (context.define name ⟨some type, .declared .parameter, none⟩).2 rest types
  | context, .stray _ :: rest, _ :: types => bindParameters context rest types
  | context, _, _ => context

def enter (context : Context) (parameters : List Parameter) (types : List TypeId)
    (result : TypeId) : Context :=
  (context.push (.function result)).bindParameters parameters types

end Context

inductive CallRule (registry : Registry) (callee : TypeId) (arguments : List TypeId) :
    TypeId → Prop where
  | unknown {type : TypeId} :
      callee = .unknown →
      CallRule registry callee arguments type
  | known {parameters : List TypeId} {result : TypeId} :
      Check.callable? registry callee = some (parameters, result) →
      List.Forall₂ (fun found expected => found.fits expected = true) arguments parameters →
      CallRule registry callee arguments result

inductive ValueRule (final : CheckState) (found : TypeId) :
    Option TypeExpression → TypeId → Prop where
  | inferred : ValueRule final found none found
  | written {written : TypeExpression} {declared : TypeId} :
      written.Denotes final declared →
      found.fits declared = true →
      ValueRule final found (some written) declared

def Statement.isFunction : Statement → Bool
  | .declaration (.function _ _ _ _ _) => true
  | _ => false

inductive DeclaresFunctions (final : CheckState) : Context → List Statement → Context → Prop where
  | nil {context : Context} : DeclaresFunctions final context [] context
  | function
      {context next last : Context}
      {id : NodeId}
      {name : String}
      {parameters : List Parameter}
      {result : Option TypeExpression}
      {body : Block}
      {rest : List Statement}
      {types : List TypeId}
      {resultType : Option TypeId}
      {type : TypeId} :
      SignatureDenotes final parameters result types resultType →
      final.registry.shape? type = some (.function types (resultType.getD .unit)) →
      context.define name ⟨some type, .declared .function, some id⟩ = (true, next) →
      DeclaresFunctions final next rest last →
      DeclaresFunctions final context
        (.declaration (.function id name parameters result body) :: rest) last
  | other
      {context last : Context}
      {first : Statement}
      {rest : List Statement} :
      first.isFunction = false →
      DeclaresFunctions final context rest last →
      DeclaresFunctions final context (first :: rest) last

mutual

/-- An expression has a type by a rule, and the type is noted for it. -/
inductive Expression.HasType (final : CheckState) : Context → Expression → TypeId → Prop where
  | noted {context : Context} {expression : Expression} {type : TypeId} :
      Expression.Derives final context expression type →
      final.types.get? expression.id = some type →
      Expression.HasType final context expression type

/-- The typing rules of expressions. -/
inductive Expression.Derives (final : CheckState) : Context → Expression → TypeId → Prop where
  | number {context : Context} {id : NodeId} {value : Double} :
      Expression.Derives final context (.number id value) .number
  | string {context : Context} {id : NodeId} {value : String} :
      Expression.Derives final context (.string id value) .string
  | boolean {context : Context} {id : NodeId} {value : Bool} :
      Expression.Derives final context (.boolean id value) .boolean
  | unit {context : Context} {id : NodeId} :
      Expression.Derives final context (.unit id) .unit
  | identifier
      {context : Context}
      {id : NodeId}
      {name : String}
      {binding : Binding}
      {type : TypeId} :
      context.lookup name = some binding →
      binding.type = some type →
      final.resolutions.get? id = some binding.origin.resolution →
      Expression.Derives final context (.identifier id name) type
  | binary
      {context : Context}
      {id : NodeId}
      {operator : BinaryOp}
      {left right : Expression}
      {leftType rightType type : TypeId} :
      left.HasType final context leftType →
      right.HasType final context rightType →
      leftType = .unknown ∨ rightType = .unknown ∨
        operator.result? leftType rightType = some type →
      Expression.Derives final context (.binary id operator left right) type
  | unary
      {context : Context}
      {id : NodeId}
      {operator : UnaryOp}
      {operand : Expression}
      {type : TypeId} :
      operand.HasType final context type →
      type = .unknown ∨ type = operator.operandType →
      Expression.Derives final context (.unary id operator operand) type
  | call
      {context : Context}
      {id : NodeId}
      {callee : Expression}
      {arguments : List Expression}
      {calleeType type : TypeId}
      {types : List TypeId} :
      callee.HasType final context calleeType →
      Expression.HaveTypes final context arguments types →
      CallRule final.registry calleeType types type →
      Expression.Derives final context (.call id callee arguments) type
  | member
      {context : Context}
      {id : NodeId}
      {object : Expression}
      {name : String}
      {objectType type : TypeId} :
      object.HasType final context objectType →
      objectType = .unknown ∨
        (final.registry.member? objectType name).map Member.type = some (some type) →
      Expression.Derives final context (.member id object name) type
  | lambda
      {context : Context}
      {id : NodeId}
      {parameters : List Parameter}
      {result : Option TypeExpression}
      {body : LambdaBody}
      {types : List TypeId}
      {declared : Option TypeId}
      {resultType type : TypeId} :
      SignatureDenotes final parameters result types declared →
      body.HasType final context parameters types declared resultType →
      final.registry.shape? type = some (.function types resultType) →
      Expression.Derives final context (.lambda id parameters result body) type

inductive Expression.HaveTypes (final : CheckState) :
    Context → List Expression → List TypeId → Prop where
  | nil {context : Context} : Expression.HaveTypes final context [] []
  | cons
      {context : Context}
      {first : Expression}
      {rest : List Expression}
      {firstType : TypeId}
      {restTypes : List TypeId} :
      first.HasType final context firstType →
      Expression.HaveTypes final context rest restTypes →
      Expression.HaveTypes final context (first :: rest) (firstType :: restTypes)

inductive LambdaBody.HasType (final : CheckState) :
    Context → List Parameter → List TypeId → Option TypeId → LambdaBody → TypeId → Prop where
  | inferred
      {context : Context}
      {parameters : List Parameter}
      {types : List TypeId}
      {body : Expression}
      {found : TypeId} :
      body.HasType final (context.enter parameters types .unknown) found →
      LambdaBody.HasType final context parameters types none (.expression body) found
  | written
      {context : Context}
      {parameters : List Parameter}
      {types : List TypeId}
      {body : Expression}
      {found expected : TypeId} :
      body.HasType final (context.enter parameters types expected) found →
      found.fits expected = true →
      LambdaBody.HasType final context parameters types (some expected) (.expression body) expected
  | block
      {context : Context}
      {parameters : List Parameter}
      {types : List TypeId}
      {declared : Option TypeId}
      {body : Block} :
      body.Accepted final (context.enter parameters types (declared.getD .unit)) →
      declared.getD .unit = .unit ∨ declared.getD .unit = .unknown ∨ body.returns = true →
      LambdaBody.HasType final context parameters types declared (.block body)
        (declared.getD .unit)

inductive Block.Accepted (final : CheckState) : Context → Block → Prop where
  | statements
      {context entered left : Context}
      {id : NodeId}
      {statements : List Statement} :
      DeclaresFunctions final context statements entered →
      Statement.AllAccepted final entered statements left →
      Block.Accepted final context (.statements id statements)

inductive Statement.AllAccepted (final : CheckState) :
    Context → List Statement → Context → Prop where
  | nil {context : Context} : Statement.AllAccepted final context [] context
  | cons
      {context next last : Context}
      {first : Statement}
      {rest : List Statement} :
      first.Accepted final context next →
      Statement.AllAccepted final next rest last →
      Statement.AllAccepted final context (first :: rest) last

/-- A statement is accepted in a context, and leaves another one for those after it. -/
inductive Statement.Accepted (final : CheckState) : Context → Statement → Context → Prop where
  | value
      {context next : Context}
      {id : NodeId}
      {mutable : Bool}
      {name : String}
      {written : Option TypeExpression}
      {initial : Expression}
      {found type : TypeId} :
      initial.HasType final context found →
      ValueRule final found written type →
      context.define name ⟨some type, .declared (.ofMutable mutable), some id⟩ = (true, next) →
      Statement.Accepted final context
        (.declaration (.value id mutable name written initial)) next
  | function
      {context : Context}
      {id : NodeId}
      {name : String}
      {parameters : List Parameter}
      {result : Option TypeExpression}
      {body : Block}
      {types : List TypeId}
      {resultType : Option TypeId} :
      SignatureDenotes final parameters result types resultType →
      body.Accepted final (context.enter parameters types (resultType.getD .unit)) →
      resultType.getD .unit = .unit ∨ resultType.getD .unit = .unknown ∨ body.returns = true →
      Statement.Accepted final context
        (.declaration (.function id name parameters result body)) context
  | expression
      {context : Context}
      {id : NodeId}
      {expression : Expression}
      {type : TypeId} :
      expression.HasType final context type →
      Statement.Accepted final context (.expression id expression) context
  | returnNothing
      {context : Context}
      {id : NodeId}
      {expected : TypeId} :
      context.returnType = some expected →
      TypeId.unit.fits expected = true →
      Statement.Accepted final context (.returnNothing id) context
  | returnValue
      {context : Context}
      {id : NodeId}
      {value : Expression}
      {found expected : TypeId} :
      value.HasType final context found →
      context.returnType = some expected →
      found.fits expected = true →
      Statement.Accepted final context (.returnValue id value) context
  | conditional
      {context : Context}
      {id : NodeId}
      {test : Expression}
      {thenBlock : Block}
      {otherwise : ElseBranch}
      {found : TypeId} :
      test.HasType final context found →
      found.fits .boolean = true →
      thenBlock.Accepted final (context.push .block) →
      otherwise.Accepted final context →
      Statement.Accepted final context (.conditional id test thenBlock otherwise) context
  | loop
      {context : Context}
      {id : NodeId}
      {test : Expression}
      {body : Block}
      {found : TypeId} :
      test.HasType final context found →
      found.fits .boolean = true →
      body.Accepted final (context.push .block) →
      Statement.Accepted final context (.loop id test body) context
  | assignment
      {context : Context}
      {id : NodeId}
      {target : String}
      {value : Expression}
      {binding : Binding}
      {found expected : TypeId} :
      value.HasType final context found →
      context.lookup target = some binding →
      binding.isMutable = true →
      binding.type = some expected →
      found.fits expected = true →
      Statement.Accepted final context (.assignment id target value) context

inductive ElseBranch.Accepted (final : CheckState) : Context → ElseBranch → Prop where
  | nothing {context : Context} : ElseBranch.Accepted final context .nothing
  | block {context : Context} {block : Block} :
      block.Accepted final (context.push .block) →
      ElseBranch.Accepted final context (.block block)
  | statement {context : Context} {statement : Statement} :
      statement.Accepted final context context →
      ElseBranch.Accepted final context (.statement statement)

end

end Toolshed
