import Toolshed.Double.Basic
import Toolshed.ModulePath
import Toolshed.Syntax.Operator

namespace Toolshed

/-!
# Scripts

The JavaScript programs that modules are turned into, as trees. The tree of a
script knows nothing of the module that it came from.
-/

namespace Script

inductive VariableKind where
  | hoisted
  | scoped
  | constant
  deriving Repr, DecidableEq

def VariableKind.keyword : VariableKind → String
  | .hoisted => "var"
  | .scoped => "let"
  | .constant => "const"

mutual

inductive Expression where
  | number (value : Double)
  | string (value : String)
  | boolean (value : Bool)
  | undefined
  | identifier (name : String)
  | binary (operator : BinaryOp) (left right : Expression)
  | unary (operator : UnaryOp) (operand : Expression)
  | call (callee : Expression) (arguments : List Expression)
  | member (object : Expression) (property : String)
  | function (function : Function)
  | object (properties : List Property)
  | assignment (target : String) (value : Expression)

inductive Function where
  | make (name : Option String) (parameters : List String) (body : List Statement)

inductive Property where
  | value (key : String) (value : Expression)
  | getter (key : String) (value : Expression)

inductive Statement where
  | variable (kind : VariableKind) (name : String) (initial : Expression)
  | function (function : Function)
  | returnNothing
  | returnValue (value : Expression)
  | conditional (condition : Expression) (thenBody : List Statement)
      (elseBody : Option (List Statement))
  | loop (condition : Expression) (body : List Statement)
  | block (body : List Statement)
  | expression (expression : Expression)

end

def operatorText : BinaryOp → String
  | .equal => "==="
  | .notEqual => "!=="
  | operator => operator.symbol

def operatorPrecedence : BinaryOp → Nat
  | .or => 3
  | .and => 4
  | .equal | .notEqual => 8
  | .less | .lessEqual | .greater | .greaterEqual => 9
  | .add | .subtract => 11
  | .multiply | .divide | .remainder => 12

namespace Expression

/--
How strongly an expression binds as an operand. A negative number is written
with a sign.
-/
def precedence : Expression → Nat
  | .assignment _ _ => 2
  | .binary operator _ _ => operatorPrecedence operator
  | .unary _ _ => 14
  | .number value => if value.isNegative then 14 else 20
  | .call _ _ | .member _ _ => 17
  | _ => 20

def members (object : Expression) : List String → Expression
  | [] => object
  | name :: rest => members (.member object name) rest

def path (dotted : String) : Expression :=
  match (ModulePath.parse dotted).segments with
  | [] => .identifier ""
  | first :: rest => members (.identifier first) rest

end Expression

end Script

end Toolshed
