import Toolshed.Grammar.State

namespace Toolshed

/-!
# Phrases by level of nesting

Phrases contain one another, and every way back into the grammar passes
`Parse.enter`. So the readers of one level are written over the readers one
level deeper, and the limit on nesting bounds the levels. A reader leaves the
levels that it has entered, also if it answers nothing.
-/

abbrev Tier :=
  List (Symbol × BinaryOp)

def Tier.all : List Tier :=
  [[(.orOr, .or)],
    [(.andAnd, .and)],
    [(.equalEqual, .equal), (.bangEqual, .notEqual)],
    [(.less, .less), (.lessEqual, .lessEqual), (.greater, .greater),
      (.greaterEqual, .greaterEqual)],
    [(.plus, .add), (.minus, .subtract)],
    [(.star, .multiply), (.slash, .divide), (.percent, .remainder)]]

/-- The readers of one level that phrases one level above it call. -/
structure Phrases where
  tiers : Parse NodeId
  unary : Parse NodeId
  expression : Parse NodeId
  ascription : Parse NodeId
  statement : Parse NodeId
  conditional : Parse NodeId
  declaration : Parse NodeId

def Phrases.none : Phrases :=
  let refuse : Parse NodeId := .refuse fun _ => .tooDeep
  { tiers := refuse
    unary := refuse
    expression := refuse
    ascription := refuse
    statement := refuse
    conditional := refuse
    declaration := refuse }

namespace Grammar

open Parse

/-! ## Types and parameters -/

def functionType (inner : Phrases) (start : Range) : Parse NodeId := do
  let parameters ←
    if ← ask (·.nextIs (.symbol .rightParen)) then
      pure []
    else
      separated inner.ascription
  expect (.symbol .rightParen)
  expect (.symbol .arrow)
  let result ← inner.ascription
  makeFrom start (.functionType parameters result)

def ascription (inner : Phrases) : Parse NodeId := do
  let start ← here
  match ← ask (·.kind) with
  | .identifier =>
    let typeName ← name
    make (.namedType typeName) start
  | .symbol .leftParen =>
    let _ ← next
    enter
    let result ← attempt (functionType inner start)
    leave
    answer result
  | _ => refuse .expectedType

/--
One parameter. A name that is taken is noted at the parameter that repeats it.
-/
def parameter (inner : Phrases) (taken : List String) : Parse (String × NodeId) := do
  let start ← here
  let parameterName ← name
  expect (.symbol .colon)
  let type ← ascription inner
  let node ← makeFrom start (.parameter parameterName type)
  if taken.contains parameterName then
    note (.duplicateParameter parameterName) node
  return (parameterName, node)

def parametersUpTo (inner : Phrases) : (fuel : Nat) → (taken : List String) → Parse (List NodeId)
  | 0, taken => do
    let (_, only) ← parameter inner taken
    return [only]
  | fuel + 1, taken => do
    let (parameterName, first) ← parameter inner taken
    if ← eat (.symbol .comma) then
      let others ← parametersUpTo inner fuel (parameterName :: taken)
      return first :: others
    else
      return [first]

def parameters (inner : Phrases) : Parse (List NodeId) := do
  expect (.symbol .leftParen)
  let found ←
    if ← ask (·.nextIs (.symbol .rightParen)) then
      pure []
    else
      let left ← ask (·.rest.length)
      parametersUpTo inner left []
  expect (.symbol .rightParen)
  return found

def optionalAscription (inner : Phrases) : Parse (Option NodeId) := do
  if ← eat (.symbol .colon) then
    let type ← ascription inner
    return some type
  else
    return none

/-! ## Blocks -/

/--
Statements up to a closing brace or the end, at most `fuel` of them. A statement
that fails is left out, and reading goes on after it.
-/
def statementsUpTo (statement : Parse NodeId) : (fuel : Nat) → Parse (List NodeId)
  | 0 => return []
  | fuel + 1 => do
    if ← ask fun state => state.nextIs (.symbol .rightBrace) || state.atFinish then
      return []
    else
      let before ← ask (·.rest.length)
      match ← attempt statement with
      | some node =>
        let others ← statementsUpTo statement fuel
        return node :: others
      | none =>
        synchronise before
        statementsUpTo statement fuel

def statements (statement : Parse NodeId) : Parse (List NodeId) := do
  let left ← ask (·.rest.length)
  statementsUpTo statement left

def block (inner : Phrases) : Parse NodeId := do
  let start ← here
  expect (.symbol .leftBrace)
  enter
  let found ← statements inner.statement
  leave
  expect (.symbol .rightBrace)
  makeFrom start (.block found)

end Grammar

end Toolshed
