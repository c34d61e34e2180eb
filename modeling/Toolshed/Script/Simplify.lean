import Toolshed.Double.Arithmetic
import Toolshed.Script.Basic

namespace Toolshed

/-!
# Simpler scripts

Operators on literals are worked out, and branches whose condition is a literal
are decided. Calls, assignments and other effects are never dropped, unless they
could not run.
-/

namespace Script

/--
The result of an operator on two numbers; division by zero is left to the host.
-/
def foldNumbers (operator : BinaryOp) (left right : Double) : Option Expression :=
  match operator with
  | .add => some (.number (left.add right))
  | .subtract => some (.number (left.subtract right))
  | .multiply => some (.number (left.multiply right))
  | .divide => if right.isZero then none else some (.number (left.divide right))
  | .remainder => if right.isZero then none else some (.number (left.remainder right))
  | .less => some (.boolean (left.less right))
  | .lessEqual => some (.boolean (left.lessEqual right))
  | .greater => some (.boolean (right.less left))
  | .greaterEqual => some (.boolean (right.lessEqual left))
  | .equal => some (.boolean (left.equal right))
  | .notEqual => some (.boolean (!left.equal right))
  | .and | .or => none

def foldStrings (operator : BinaryOp) (left right : String) : Option Expression :=
  match operator with
  | .add => some (.string (left ++ right))
  | .equal => some (.boolean (left = right))
  | .notEqual => some (.boolean (left ≠ right))
  | _ => none

/--
The result of an operator whose left operand is a truth value; it may not depend
on the right operand.
-/
def foldBoolean (operator : BinaryOp) (left : Bool) (right : Expression) : Option Expression :=
  match operator, right with
  | .equal, .boolean right => some (.boolean (left = right))
  | .notEqual, .boolean right => some (.boolean (left ≠ right))
  | .and, right => some (if left then right else .boolean false)
  | .or, right => some (if left then .boolean true else right)
  | _, _ => none

def foldBinary (operator : BinaryOp) (left right : Expression) : Option Expression :=
  match left, right with
  | .number left, .number right => foldNumbers operator left right
  | .string left, .string right => foldStrings operator left right
  | .boolean left, right => foldBoolean operator left right
  | _, _ => none

def simpleBinary (operator : BinaryOp) (left right : Expression) : Expression :=
  (foldBinary operator left right).getD (.binary operator left right)

def simpleUnary (operator : UnaryOp) (operand : Expression) : Expression :=
  match operator, operand with
  | .negate, .number value => .number value.negate
  | .not, .boolean value => .boolean (!value)
  | _, _ => .unary operator operand

def Statement.declares : Statement → Bool
  | .variable _ _ _ | .function _ => true
  | _ => false

/--
The statements of a branch that always runs, in a block if they declare names.
-/
def splice (body : List Statement) : List Statement :=
  if body.any Statement.declares then [.block body] else body

def simpleConditional (condition : Expression) (thenBody : List Statement)
    (elseBody : Option (List Statement)) : List Statement :=
  match condition with
  | .boolean true => splice thenBody
  | .boolean false => (elseBody.map splice).getD []
  | _ => [.conditional condition thenBody elseBody]

def simpleLoop (condition : Expression) (body : List Statement) : List Statement :=
  match condition with
  | .boolean false => []
  | _ => [.loop condition body]

mutual

def Expression.simplify : Expression → Expression
  | .binary operator left right => simpleBinary operator left.simplify right.simplify
  | .unary operator operand => simpleUnary operator operand.simplify
  | .call callee arguments => .call callee.simplify (simplifyExpressions arguments)
  | .member object property => .member object.simplify property
  | .function function => .function function.simplify
  | .object properties => .object (simplifyProperties properties)
  | .assignment target value => .assignment target value.simplify
  | .number value => .number value
  | .string value => .string value
  | .boolean value => .boolean value
  | .undefined => .undefined
  | .identifier name => .identifier name

def simplifyExpressions : List Expression → List Expression
  | [] => []
  | first :: rest => first.simplify :: simplifyExpressions rest

def Function.simplify : Function → Function
  | .make name parameters body => .make name parameters (simplify body)

def Property.simplify : Property → Property
  | .value key value => .value key value.simplify
  | .getter key value => .getter key value.simplify

def simplifyProperties : List Property → List Property
  | [] => []
  | first :: rest => first.simplify :: simplifyProperties rest

def Statement.simplify : Statement → List Statement
  | .variable kind name initial => [.variable kind name initial.simplify]
  | .function function => [.function function.simplify]
  | .returnNothing => [.returnNothing]
  | .returnValue value => [.returnValue value.simplify]
  | .conditional condition thenBody none =>
    simpleConditional condition.simplify (simplify thenBody) none
  | .conditional condition thenBody (some elseBody) =>
    simpleConditional condition.simplify (simplify thenBody) (some (simplify elseBody))
  | .loop condition body => simpleLoop condition.simplify (simplify body)
  | .block body => [.block (simplify body)]
  | .expression expression => [.expression expression.simplify]

def simplify : List Statement → List Statement
  | [] => []
  | first :: rest => first.simplify ++ simplify rest

end

end Script

end Toolshed
