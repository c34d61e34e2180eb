import Toolshed.Double.Decimal
import Toolshed.Grammar.Phrase

namespace Toolshed

/-!
# Expressions

Binary operators associate to the left and bind by tiers. A binary operator, a
call or a member name carries an expression on only if it stands on the same
line.
-/

namespace Grammar

open Parse

def expression (inner : Phrases) : Parse NodeId := do
  enter
  let result ← attempt inner.tiers
  leave
  answer result

def lambda (inner : Phrases) : Parse NodeId := do
  let start ← here
  let _ ← next
  let found ← parameters inner
  let result ← optionalAscription inner
  if ← eat (.symbol .fatArrow) then
    let body ← expression inner
    makeFrom start (.lambda found result .expression body)
  else if ← ask (·.nextIs (.symbol .leftBrace)) then
    let body ← block inner
    makeFrom start (.lambda found result .block body)
  else
    refuse .expectedLambdaBody

def numberLiteral : Parse NodeId := do
  let token ← next
  let written := token.value.getD token.raw
  match Double.ofText? written with
  | some value => make (.number value) token.range
  | none => fun state => (none, state.report (.invalidNumber written) (.range token.range))

def parenthesised (inner : Phrases) : Parse NodeId := do
  let start ← here
  let _ ← next
  if ← eat (.symbol .rightParen) then
    makeFrom start .unit
  else
    let found ← expression inner
    expect (.symbol .rightParen)
    return found

def primary (inner : Phrases) : Parse NodeId := do
  let start ← here
  match ← ask (·.kind) with
  | .number => numberLiteral
  | .string =>
    let token ← next
    make (.string (token.value.getD "")) start
  | .keyword .trueWord =>
    let _ ← next
    make (.boolean true) start
  | .keyword .falseWord =>
    let _ ← next
    make (.boolean false) start
  | .identifier =>
    let found ← name
    make (.identifier found) start
  | .symbol .leftParen => parenthesised inner
  | .keyword .funWord => lambda inner
  | _ => refuse .expectedExpression

def arguments (inner : Phrases) : Parse (List NodeId) := do
  expect (.symbol .leftParen)
  let found ←
    if ← ask (·.nextIs (.symbol .rightParen)) then
      pure []
    else
      separated inner.expression
  expect (.symbol .rightParen)
  return found

def rangeOf (node : NodeId) : Parse Range :=
  ask fun state => state.arena.rangeOf node

/-- One call of an expression, or one member name after it. -/
def link (inner : Phrases) (isCall : Bool) (subject : NodeId) : Parse NodeId := do
  if isCall then
    let found ← arguments inner
    let start ← rangeOf subject
    makeFrom start (.call subject found)
  else
    let _ ← next
    let memberName ← name
    let start ← rangeOf subject
    makeFrom start (.member subject memberName)

/-- Leave the levels of links and answer what was found. -/
def leaving (links : Nat) (result : Option NodeId) : Parse NodeId := do
  leaveMany links
  answer result

/--
The links after a phrase, at most `fuel` of them. Each enters a level, as the nodes
of those before it are inside its own; `links` counts the levels that are entered
and not yet left, and `finish` has to see to them.
-/
def linksUpTo (find : ParseState → Option κ) (link : κ → NodeId → Parse NodeId)
    (finish : (links : Nat) → Option NodeId → Parse α) :
    (fuel : Nat) → (links : Nat) → (before : NodeId) → Parse α
  | 0, links, before => finish links (some before)
  | fuel + 1, links, before => do
    match ← ask find with
    | none => finish links (some before)
    | some sort =>
      match ← attempt enter with
      | none => finish links none
      | some _ =>
        match ← attempt (link sort before) with
        | none => finish (links + 1) none
        | some node => linksUpTo find link finish fuel (links + 1) node

/-- Whether a call is next, or else a member name. -/
def suffix? (state : ParseState) : Option Bool :=
  if state.continues .leftParen then
    some true
  else if state.continues .dot then
    some false
  else
    none

/-- The calls and member names after an expression; their levels are counted and then left. -/
def suffixes (inner : Phrases) (subject : NodeId) : Parse NodeId := do
  let left ← ask (·.rest.length)
  let (links, result) ←
    linksUpTo suffix? (link inner) (fun links result => return (links, result)) left 0 subject
  leaving links result

def unaryOperator? : TokenKind → Option UnaryOp
  | .symbol .minus => some .negate
  | .symbol .bang => some .not
  | _ => none

def unary (inner : Phrases) : Parse NodeId := do
  match unaryOperator? (← ask (·.kind)) with
  | some operator =>
    let token ← next
    enter
    let result ← attempt inner.unary
    leave
    let operand ← answer result
    let range ← rangeOf operand
    make (.unary operator operand) (token.range.merge range)
  | none =>
    let subject ← primary inner
    suffixes inner subject

/-- The operator of a tier that is next. -/
def operator? (tier : Tier) (state : ParseState) : Option (Symbol × BinaryOp) :=
  tier.find? fun entry => state.continues entry.1

/-- One operator and its right operand after a left operand. -/
def operation (operator : BinaryOp) (operand : Parse NodeId) (left : NodeId) : Parse NodeId := do
  let _ ← next
  let right ← operand
  let leftRange ← rangeOf left
  let rightRange ← rangeOf right
  make (.binary operator left right) (leftRange.merge rightRange)

/-- The operators of one tier after a left operand; every exit leaves their levels. -/
def operators (tier : Tier) (operand : Parse NodeId) (left : NodeId) : Parse NodeId := do
  let rest ← ask (·.rest.length)
  linksUpTo (operator? tier) (fun entry => operation entry.2 operand) leaving rest 0 left

def tiers (inner : Phrases) : List Tier → Parse NodeId
  | [] => unary inner
  | tier :: tighter => do
    let left ← tiers inner tighter
    operators tier (tiers inner tighter) left

end Grammar

end Toolshed
