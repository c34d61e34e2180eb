import Toolshed.Script.Basic
import Toolshed.Script.Literal

namespace Toolshed

/-!
# The text of scripts

A script is first cut into pieces, some of which are blanks that may be dropped.
The two layouts are two readings of the same pieces: the spread one has a line for
each statement, and the compact one has no blank that it does not need.
Parentheses come from the precedence of operators.
-/

namespace Script

inductive Piece where
  | text (characters : String)
  | blank
  | thin
  /--
  A line break and the indentation of the next line, which the compact layout
  drops.
  -/
  | line (depth : Nat)
  deriving Repr, DecidableEq

inductive Layout where
  | spread
  | compact
  deriving Repr, DecidableEq

def Piece.read : Layout → Piece → String
  | _, .text characters => characters
  | _, .blank => " "
  | .spread, .thin => " "
  | .compact, .thin => ""
  | .spread, .line depth => "\n" ++ String.ofList (List.replicate (4 * depth) ' ')
  | .compact, .line _ => ""

def Piece.readAll (layout : Layout) (pieces : List Piece) : String :=
  String.join (pieces.map (Piece.read layout))

def firstCharacter? : List Piece → Option Char
  | [] => none
  | .text characters :: rest =>
    match characters.toList with
    | first :: _ => some first
    | [] => firstCharacter? rest
  | .blank :: _ => some ' '
  | .thin :: rest => firstCharacter? rest
  | .line _ :: rest => firstCharacter? rest

def startsWithSign (pieces : List Piece) : Bool :=
  firstCharacter? pieces = some '+' || firstCharacter? pieces = some '-'

def assignmentPrecedence : Nat :=
  2

def parenthesised (needed : Bool) (pieces : List Piece) : List Piece :=
  if needed then .text "(" :: pieces ++ [.text ")"] else pieces

def commaSeparated : List (List Piece) → List Piece
  | [] => []
  | [only] => only
  | first :: rest => first ++ [.text ",", .thin] ++ commaSeparated rest

def onLines (depth : Nat) : List (List Piece) → List Piece
  | [] => []
  | [only] => only
  | first :: rest => first ++ [.line depth] ++ onLines depth rest

def braced (depth : Nat) (statements : List (List Piece)) : List Piece :=
  if statements.isEmpty then
    [.text "\x7b\x7d"]
  else
    [.text "\x7b", .line (depth + 1)] ++ onLines (depth + 1) statements ++
      [.line depth, .text "\x7d"]

def bracedEntries (depth : Nat) : List (List Piece) → List Piece
  | [] => [.text "\x7b\x7d"]
  | first :: rest =>
    [.text "\x7b", .line (depth + 1)] ++ first ++
      rest.flatMap (fun entry => [.text ",", .line (depth + 1)] ++ entry) ++
      [.line depth, .text "\x7d"]

/--
Pieces of a binary operator between the pieces of its operands. A sign may not
run into another one.
-/
def binaryPieces (operator : BinaryOp) (left right : List Piece) : List Piece :=
  let endsWithSign := operator = .add || operator = .subtract
  left ++
    [.thin, .text (operatorText operator),
      if endsWithSign && startsWithSign right then .blank else .thin] ++
    right

/--
Pieces of a unary operator before the pieces of its operand. A minus may not run
into another one.
-/
def unaryPieces (operator : UnaryOp) (operand : List Piece) : List Piece :=
  .text operator.symbol ::
    parenthesised (operator = .negate && firstCharacter? operand = some '-') operand

/--
Whether a statement that is this expression would read as a declaration or a
block.
-/
def Expression.startsAmbiguously : Expression → Bool
  | .function _ | .object _ => true
  | .call callee _ => callee.startsAmbiguously
  | .member (.number _) _ => false
  | .member subject _ => subject.startsAmbiguously
  | .binary operator left _ =>
    operatorPrecedence operator ≤ left.precedence && left.startsAmbiguously
  | _ => false

/--
Whether an expression is a number, whose text would take a point for its own.
-/
def Expression.isNumber : Expression → Bool
  | .number _ => true
  | _ => false

def Statement.isConditional : Statement → Bool
  | .conditional _ _ _ => true
  | _ => false

mutual

def Expression.pieces (depth : Nat) : Expression → List Piece
  | .number value => [.text (numberText value)]
  | .string value => [.text (quote value)]
  | .boolean value => [.text (if value then "true" else "false")]
  | .undefined => [.text "undefined"]
  | .identifier name => [.text name]
  | .binary operator left right =>
    let precedence := operatorPrecedence operator
    binaryPieces operator
      (parenthesised (left.precedence < precedence) (left.pieces depth))
      (parenthesised (right.precedence < precedence + 1) (right.pieces depth))
  | .unary operator operand =>
    unaryPieces operator (parenthesised (operand.precedence < 14) (operand.pieces depth))
  | .call callee arguments =>
    parenthesised (callee.precedence < 17) (callee.pieces depth) ++
      [.text "("] ++ commaSeparated (argumentPieces depth arguments) ++ [.text ")"]
  | .member object property =>
    parenthesised (object.isNumber || object.precedence < 17) (object.pieces depth) ++
      [.text ".", .text property]
  | .function function => function.pieces depth
  | .object properties => bracedEntries depth (propertyPieces (depth + 1) properties)
  | .assignment target value =>
    [.text target, .thin, .text "=", .thin] ++
      parenthesised (value.precedence < assignmentPrecedence) (value.pieces depth)

def argumentPieces (depth : Nat) : List Expression → List (List Piece)
  | [] => []
  | first :: rest =>
    parenthesised (first.precedence < assignmentPrecedence + 1) (first.pieces depth) ::
      argumentPieces depth rest

def Function.pieces (depth : Nat) : Function → List Piece
  | .make name parameters body =>
    [.text "function"] ++
      (match name with
        | some name => [.blank, .text name]
        | none => []) ++
      [.text "("] ++ commaSeparated (parameters.map fun parameter => [.text parameter]) ++
      [.text ")", .thin] ++ braced depth (statementPieces (depth + 1) body)

def propertyPieces (depth : Nat) : List Property → List (List Piece)
  | [] => []
  | .value key value :: rest =>
    ([.text key, .text ":", .thin] ++
      parenthesised (value.precedence < assignmentPrecedence + 1) (value.pieces depth)) ::
      propertyPieces depth rest
  | .getter key value :: rest =>
    ([.text "get", .blank, .text key, .text "()", .thin] ++
      braced depth
        [[.text "return", .blank] ++ value.pieces (depth + 1) ++ [.text ";"]]) ::
      propertyPieces depth rest

def Statement.pieces (depth : Nat) : Statement → List Piece
  | .variable kind name initial =>
    [.text kind.keyword, .blank, .text name, .thin, .text "=", .thin] ++
      parenthesised (initial.precedence < assignmentPrecedence) (initial.pieces depth) ++
      [.text ";"]
  | .function function => function.pieces depth
  | .returnNothing => [.text "return;"]
  | .returnValue value => [.text "return", .blank] ++ value.pieces depth ++ [.text ";"]
  | .conditional condition thenBody elseBody =>
    [.text "if", .thin, .text "("] ++ condition.pieces depth ++ [.text ")", .thin] ++
      braced depth (statementPieces (depth + 1) thenBody) ++
      elsePieces depth elseBody
  | .loop condition body =>
    [.text "while", .thin, .text "("] ++ condition.pieces depth ++ [.text ")", .thin] ++
      braced depth (statementPieces (depth + 1) body)
  | .block body => braced depth (statementPieces (depth + 1) body)
  | .expression expression =>
    parenthesised expression.startsAmbiguously (expression.pieces depth) ++ [.text ";"]

/--
The pieces of the second branch of an `if`; a branch that is one `if` needs no
braces.
-/
def elsePieces (depth : Nat) : Option (List Statement) → List Piece
  | none => []
  | some [only] =>
    if only.isConditional then
      [.thin, .text "else", .blank] ++ only.pieces depth
    else
      [.thin, .text "else", .thin] ++ braced depth [only.pieces (depth + 1)]
  | some body =>
    [.thin, .text "else", .thin] ++ braced depth (statementPieces (depth + 1) body)

def statementPieces (depth : Nat) : List Statement → List (List Piece)
  | [] => []
  | first :: rest => first.pieces depth :: statementPieces depth rest

end

def render (layout : Layout) (body : List Statement) : String :=
  Piece.readAll layout (onLines 0 (statementPieces 0 body)) ++ "\n"

end Script

end Toolshed
