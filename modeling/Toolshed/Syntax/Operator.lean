namespace Toolshed

/-!
# Operators of the language

Every operator has one spelling, and no two operators of a kind share theirs.
-/

inductive BinaryOp where
  | add
  | subtract
  | multiply
  | divide
  | remainder
  | equal
  | notEqual
  | less
  | lessEqual
  | greater
  | greaterEqual
  | and
  | or
  deriving Repr, DecidableEq

namespace BinaryOp

def all : List BinaryOp :=
  [.add, .subtract, .multiply, .divide, .remainder, .equal, .notEqual, .less, .lessEqual,
    .greater, .greaterEqual, .and, .or]

def symbol : BinaryOp → String
  | .add => "+"
  | .subtract => "-"
  | .multiply => "*"
  | .divide => "/"
  | .remainder => "%"
  | .equal => "=="
  | .notEqual => "!="
  | .less => "<"
  | .lessEqual => "<="
  | .greater => ">"
  | .greaterEqual => ">="
  | .and => "&&"
  | .or => "||"

def ofSymbol? (text : String) : Option BinaryOp :=
  all.find? fun operator => operator.symbol = text

end BinaryOp

inductive UnaryOp where
  | negate
  | not
  deriving Repr, DecidableEq

namespace UnaryOp

def symbol : UnaryOp → String
  | .negate => "-"
  | .not => "!"

def ofSymbol? (text : String) : Option UnaryOp :=
  [.negate, .not].find? fun operator => operator.symbol = text

end UnaryOp

end Toolshed
