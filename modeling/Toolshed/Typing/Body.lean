import Toolshed.Typing.Rule

namespace Toolshed

/-!
# Checking bodies

Expressions and statements are checked in source order. The functions of a block
are bound before its statements are checked, so that they may call each other.
-/

mutual

def Block.returns : Block → Bool
  | .statements _ statements => Statement.lastReturns statements
  | .stray _ => false

def Statement.lastReturns : List Statement → Bool
  | [] => false
  | statement :: rest => if rest.isEmpty then statement.returns else Statement.lastReturns rest

def Statement.returns : Statement → Bool
  | .returnNothing _ | .returnValue _ _ => true
  | .conditional _ _ thenBlock otherwise => thenBlock.returns && otherwise.returns
  | _ => false

def ElseBranch.returns : ElseBranch → Bool
  | .nothing => false
  | .block block => block.returns
  | .statement statement => statement.returns

end

def DeclaredKind.ofMutable (mutable : Bool) : DeclaredKind :=
  if mutable then .varValue else .letValue

namespace Check

def declareFunctions : List Statement → Check Unit
  | [] => return ()
  | .declaration (.function id name parameters result _) :: rest => do
    let type ← signature parameters result
    declare name ⟨some type, .declared .function, some id⟩ id
    declareFunctions rest
  | _ :: rest => declareFunctions rest

def functionBlock
    (id : NodeId)
    (parameters : List Parameter)
    (types : List TypeId)
    (result : TypeId)
    (returns : Bool)
    (body : Check Unit) :
    Check Unit := do
  inFunction parameters types result body
  expectReturns result returns id

def declaredFunction
    (id : NodeId)
    (parameters : List Parameter)
    (result : Option TypeExpression)
    (returns : Bool)
    (body : Check Unit) :
    Check Unit := do
  let types ← parameterTypes parameters
  let resultType ← resolveOption result
  functionBlock id parameters types (resultType.getD .unit) returns body

section

variable (arena : Arena)

mutual

def expression : Expression → Check TypeId
  | .number id _ => typed id .number
  | .string id _ => typed id .string
  | .boolean id _ => typed id .boolean
  | .unit id => typed id .unit
  | .identifier id name => do
    let type ← identifier id name
    typed id type
  | .binary id operator left right => do
    let leftType ← expression left
    let rightType ← expression right
    let type ← binary id operator leftType rightType
    typed id type
  | .unary id operator operand => do
    let operandType ← expression operand
    let type ← unary id operator operandType
    typed id type
  | .call id callee arguments => do
    let calleeType ← expression callee
    let argumentTypes ← expressions arguments
    let type ← call id calleeType argumentTypes
    typed id type
  | .member id object name => do
    let objectType ← expression object
    let type ← member id objectType name
    typed id type
  | .lambda id parameters result body => do
    let types ← parameterTypes parameters
    let declared ← resolveOption result
    let resultType ← lambdaBody id parameters types declared body
    let type ← functionType types resultType
    typed id type
  | .stray id => typed id .unknown

def expressions : List Expression → Check (List (NodeId × TypeId))
  | [] => return []
  | first :: rest => do
    let firstType ← expression first
    let restTypes ← expressions rest
    return (first.id, firstType) :: restTypes

/--
Check the body of a lambda and answer its result type. Without a written type
that is the type of the body if the body is an expression, and the unit type if
it is a block.
-/
def lambdaBody (id : NodeId) (parameters : List Parameter) (types : List TypeId)
    (declared : Option TypeId) : LambdaBody → Check TypeId
  | .expression body => do
    let found ←
      inFunction parameters types (declared.getD .unknown) (expression body)
    match declared with
    | none => return found
    | some expected =>
      expectReturn expected found body.id
      return expected
  | .block body => do
    let result := declared.getD .unit
    functionBlock id parameters types result body.returns (blockStatements body)
    return result

def blockStatements : Block → Check Unit
  | .statements _ found => do
    declareFunctions found
    statements found
    order arena (found.map Statement.id)
  | .stray _ => return ()

def statements : List Statement → Check Unit
  | [] => return ()
  | first :: rest => do
    inStatement first.id (statement first)
    statements rest

def statement : Statement → Check Unit
  | .declaration declared => localDeclaration declared
  | .expression _ found => do
    let _ ← expression found
  | .returnNothing id => returned id id .unit
  | .returnValue id value => do
    let found ← expression value
    returned id value.id found
  | .conditional _ test thenBlock otherwise => do
    let found ← expression test
    condition .ifWord test.id found
    inScope .block (blockStatements thenBlock)
    elseBranch otherwise
  | .loop _ test body => do
    let found ← expression test
    condition .whileWord test.id found
    inScope .block (blockStatements body)
  | .assignment id target value => do
    let found ← expression value
    assignment id target value.id found
  | .stray _ => return ()

def elseBranch : ElseBranch → Check Unit
  | .nothing => return ()
  | .block block => inScope .block (blockStatements block)
  | .statement found => statement found

/--
Check a declaration among statements. A value is bound after its initial value
has been checked, and a function is bound already.
-/
def localDeclaration : Declaration → Check Unit
  | .value id mutable name type initial => do
    let found ← expression initial
    let valueType ← initialised name type initial.id found
    declare name ⟨some valueType, .declared (.ofMutable mutable), some id⟩ id
  | .function id _ parameters result body =>
    inUnit id
      (declaredFunction id parameters result body.returns (blockStatements body))
  | .classType _ _ _ _ | .stray _ => return ()

end

end

end Check

end Toolshed
