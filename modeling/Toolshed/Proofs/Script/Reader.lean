import Toolshed.Proofs.Script.Lexical

namespace Toolshed

/-!
# Reading scripts

A reader for the part of the script language that scripts are written in, with a
function for each production of its grammar. A block as a branch stands for its
statements. What may nest is read by readers that are passed on, so every
function ends.
-/

namespace Script

def keywords : List String :=
  ["await", "break", "case", "catch", "class", "const", "continue", "debugger", "default",
    "delete", "do", "else", "enum", "export", "extends", "false", "finally", "for", "function",
    "if", "import", "in", "instanceof", "let", "new", "null", "return", "super", "switch",
    "this", "throw", "true", "try", "typeof", "var", "void", "while", "with", "yield"]

/-- Reads something from the front of some characters. -/
abbrev Reader (α : Type) :=
  List Char → Option (α × List Char)

/-- Readers of what may stand inside something else. -/
structure Inner where
  unary : Reader Expression
  expression : Reader Expression
  statement : Reader Statement

/-- The levels of binary operators, looser ones first. -/
def levels : List (List (String × BinaryOp)) :=
  [[("||", .or)],
    [("&&", .and)],
    [("===", .equal), ("!==", .notEqual)],
    [("<", .less), ("<=", .lessEqual), (">", .greater), (">=", .greaterEqual)],
    [("+", .add), ("-", .subtract)],
    [("*", .multiply), ("/", .divide), ("%", .remainder)]]

def target? : Expression → Option String
  | .identifier name => some name
  | .member object property => (target? object).map fun owner => owner ++ "." ++ property
  | _ => none

def branch : Statement → List Statement
  | .block body => body
  | statement => [statement]

def returned? : List Statement → Option Expression
  | [.returnValue value] => some value
  | _ => none

def declaration? (word : String) : Option VariableKind :=
  [("var", VariableKind.hoisted), ("let", .scoped), ("const", .constant)].lookup word

namespace Reader

variable (alphabet : Alphabet)

def mark (wanted : String) : List Char → Option (List Char) := fun characters =>
  match next alphabet characters with
  | some (.mark found, rest) => if found = wanted then some rest else none
  | _ => none

def name : Reader String := fun characters =>
  match next alphabet characters with
  | some (.word name, rest) => some (name, rest)
  | _ => none

def identifier : Reader String := fun characters =>
  match next alphabet characters with
  | some (.word name, rest) => if keywords.contains name then none else some (name, rest)
  | _ => none

def word (wanted : String) : List Char → Option (List Char) := fun characters =>
  match next alphabet characters with
  | some (.word found, rest) => if found = wanted then some rest else none
  | _ => none

def items {α : Type} (item : Reader α) (close : String) : (count : Nat) → Reader (List α)
  | 0, _ => none
  | count + 1, characters => do
    let (first, rest) ← item characters
    match mark alphabet "," rest with
    | some rest =>
      let (others, rest) ← items item close count rest
      return (first :: others, rest)
    | none =>
      let rest ← mark alphabet close rest
      return ([first], rest)

def list {α : Type} (item : Reader α) (close : String) : Reader (List α) := fun characters =>
  match mark alphabet close characters with
  | some rest => some ([], rest)
  | none => items alphabet item close (characters.length + 1) characters

def block (inner : Inner) : (count : Nat) → Reader (List Statement)
  | 0, _ => none
  | count + 1, characters =>
    match mark alphabet "\x7d" characters with
    | some rest => some ([], rest)
    | none => do
      let (first, rest) ← inner.statement characters
      let (others, rest) ← block inner count rest
      return (first :: others, rest)

def function (inner : Inner) (name : Option String) : Reader Function := fun characters => do
  let rest ← mark alphabet "(" characters
  let (parameters, rest) ← list alphabet (identifier alphabet) ")" rest
  let rest ← mark alphabet "\x7b" rest
  let (body, rest) ← block alphabet inner (rest.length + 1) rest
  return (.make name parameters body, rest)

def property (inner : Inner) : Reader Property := fun characters => do
  let (key, rest) ← name alphabet characters
  match mark alphabet ":" rest with
  | some rest =>
    let (value, rest) ← inner.expression rest
    return (.value key value, rest)
  | none =>
    if key = "get" then
      let (key, rest) ← name alphabet rest
      let rest ← mark alphabet "(" rest
      let rest ← mark alphabet ")" rest
      let rest ← mark alphabet "\x7b" rest
      let (body, rest) ← block alphabet inner (rest.length + 1) rest
      let value ← returned? body
      return (.getter key value, rest)
    else
      none

/-- Read an expression that is no operator's, call or member. -/
def primary (inner : Inner) : Reader Expression := fun characters =>
  match next alphabet characters with
  | some (.number value, rest) => some (.number value, rest)
  | some (.text value, rest) => some (.string value, rest)
  | some (.word found, rest) =>
    if found = "true" then
      some (.boolean true, rest)
    else if found = "false" then
      some (.boolean false, rest)
    else if found = "function" then do
      let (name, rest) :=
        match identifier alphabet rest with
        | some (name, rest) => (some name, rest)
        | none => (none, rest)
      let (function, rest) ← function alphabet inner name rest
      return (.function function, rest)
    else if keywords.contains found then
      none
    else
      some (.identifier found, rest)
  | some (.mark found, rest) =>
    if found = "(" then do
      let (expression, rest) ← inner.expression rest
      let rest ← mark alphabet ")" rest
      return (expression, rest)
    else if found = "\x7b" then do
      let (properties, rest) ← list alphabet (property alphabet inner) "\x7d" rest
      return (.object properties, rest)
    else
      none
  | none => none

def suffixes (inner : Inner) : (count : Nat) → Expression → Reader Expression
  | 0, _, _ => none
  | count + 1, subject, characters =>
    match mark alphabet "." characters with
    | some rest => do
      let (property, rest) ← name alphabet rest
      suffixes inner count (.member subject property) rest
    | none =>
      match mark alphabet "(" characters with
      | some rest => do
        let (arguments, rest) ← list alphabet inner.expression ")" rest
        suffixes inner count (.call subject arguments) rest
      | none => some (subject, characters)

def access (inner : Inner) : Reader Expression := fun characters => do
  let (subject, rest) ← primary alphabet inner characters
  suffixes alphabet inner (rest.length + 1) subject rest

def unary (inner : Inner) : Reader Expression := fun characters =>
  match mark alphabet "-" characters with
  | some rest => do
    let (operand, rest) ← inner.unary rest
    return (.unary .negate operand, rest)
  | none =>
    match mark alphabet "!" characters with
    | some rest => do
      let (operand, rest) ← inner.unary rest
      return (.unary .not operand, rest)
    | none => access alphabet inner characters

def operator? (operators : List (String × BinaryOp)) (characters : List Char) :
    Option (BinaryOp × List Char) :=
  match next alphabet characters with
  | some (.mark found, rest) => (operators.lookup found).map fun operator => (operator, rest)
  | _ => none

def operations (operators : List (String × BinaryOp)) (operand : Reader Expression) :
    (count : Nat) → Expression → Reader Expression
  | 0, _, _ => none
  | count + 1, left, characters =>
    match operator? alphabet operators characters with
    | some (operator, rest) => do
      let (right, rest) ← operand rest
      operations operators operand count (.binary operator left right) rest
    | none => some (left, characters)

/-- Read an expression with binary operators of some levels. -/
def level (inner : Inner) : List (List (String × BinaryOp)) → Reader Expression
  | [], characters => unary alphabet inner characters
  | operators :: tighter, characters => do
    let (left, rest) ← level inner tighter characters
    operations alphabet operators (level inner tighter) (rest.length + 1) left rest

def expression (inner : Inner) : Reader Expression := fun characters => do
  let (left, rest) ← level alphabet inner levels characters
  match mark alphabet "=" rest with
  | some rest =>
    let target ← target? left
    let (value, rest) ← inner.expression rest
    return (.assignment target value, rest)
  | none => return (left, rest)

/-- Read what stands in parentheses after `if` or `while`. -/
def condition (inner : Inner) : Reader Expression := fun characters => do
  let rest ← mark alphabet "(" characters
  let (condition, rest) ← inner.expression rest
  let rest ← mark alphabet ")" rest
  return (condition, rest)

/-- Whether a line break comes before the next symbol. -/
def breaksLine (characters : List Char) : Bool :=
  (characters.takeWhile isBlank).any isLineBreak

def keyword (inner : Inner) (found : String) : List Char → Option (Statement × List Char) :=
  fun rest =>
    if found = "function" then do
      let (name, rest) ← identifier alphabet rest
      let (function, rest) ← function alphabet inner (some name) rest
      return (.function function, rest)
    else if found = "return" then
      match mark alphabet ";" rest with
      | some rest => some (.returnNothing, rest)
      | none =>
        if breaksLine rest then
          some (.returnNothing, rest)
        else do
          let (value, rest) ← inner.expression rest
          let rest ← mark alphabet ";" rest
          return (.returnValue value, rest)
    else if found = "if" then do
      let (condition, rest) ← condition alphabet inner rest
      let (thenBranch, rest) ← inner.statement rest
      match word alphabet "else" rest with
      | some rest =>
        let (elseBranch, rest) ← inner.statement rest
        return (.conditional condition (branch thenBranch) (some (branch elseBranch)), rest)
      | none => return (.conditional condition (branch thenBranch) none, rest)
    else if found = "while" then do
      let (condition, rest) ← condition alphabet inner rest
      let (body, rest) ← inner.statement rest
      return (.loop condition (branch body), rest)
    else do
      let kind ← declaration? found
      let (name, rest) ← identifier alphabet rest
      let rest ← mark alphabet "=" rest
      let (initial, rest) ← inner.expression rest
      let rest ← mark alphabet ";" rest
      return (.variable kind name initial, rest)

def leading : List String :=
  ["function", "return", "if", "while", "var", "let", "const"]

def expressionStatement (inner : Inner) : Reader Statement := fun characters => do
  let (expression, rest) ← inner.expression characters
  let rest ← mark alphabet ";" rest
  return (.expression expression, rest)

def statement (inner : Inner) : Reader Statement := fun characters =>
  match next alphabet characters with
  | some (.word found, rest) =>
    if leading.contains found then
      keyword alphabet inner found rest
    else
      expressionStatement alphabet inner characters
  | some (.mark found, rest) =>
    if found = "\x7b" then do
      let (body, rest) ← block alphabet inner (rest.length + 1) rest
      return (.block body, rest)
    else
      expressionStatement alphabet inner characters
  | _ => expressionStatement alphabet inner characters

def upTo : (depth : Nat) → Inner
  | 0 => ⟨fun _ => none, fun _ => none, fun _ => none⟩
  | depth + 1 =>
    { unary := unary alphabet (upTo depth)
      expression := expression alphabet (upTo depth)
      statement := statement alphabet (upTo depth) }

/-- Read statements, at most `count` of them, up to the end. -/
def script (inner : Inner) : (count : Nat) → List Char → Option (List Statement)
  | 0, _ => none
  | count + 1, characters =>
    if (characters.dropWhile isBlank).isEmpty then
      some []
    else do
      let (first, rest) ← inner.statement characters
      return first :: (← script inner count rest)

end Reader

/-- Read a script. No nesting is deeper than its text is long. -/
def read (alphabet : Alphabet) (text : String) : Option (List Statement) :=
  let characters := text.toList
  Reader.script (Reader.upTo alphabet (characters.length + 1)) (characters.length + 1) characters

end Script

end Toolshed
