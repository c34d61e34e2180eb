import Toolshed.Grammar.Expression

namespace Toolshed

/-!
# Statements and local declarations

A statement ends at a semicolon, at a line break, or before what closes the
block around it. Values and functions can be declared among statements.
-/

namespace Grammar

open Parse

def letDeclaration (inner : Phrases) : Parse NodeId := do
  let start ← here
  let word ← next
  let declared ← name
  let type ← optionalAscription inner
  expect (.symbol .equal)
  let value ← expression inner
  let range ← ask (·.rangeFrom start)
  terminator
  make (.letDecl (word.kind = .keyword .varWord) declared type value) range

def funDeclaration (inner : Phrases) : Parse NodeId := do
  let start ← here
  let _ ← next
  let declared ← name
  let found ← parameters inner
  let result ← optionalAscription inner
  let body ← block inner
  makeFrom start (.funDecl declared found result body)

def declaration (inner : Phrases) : Parse NodeId := do
  if ← ask (·.nextIs (.keyword .funWord)) then
    funDeclaration inner
  else
    letDeclaration inner

def returnsNothing (state : ParseState) : Bool :=
  state.nextIs (.symbol .semicolon) || state.nextIs (.symbol .rightBrace) || state.atFinish ||
    state.current.fresh

def returnStatement (inner : Phrases) : Parse NodeId := do
  let start ← here
  let _ ← next
  let value ←
    if ← ask returnsNothing then
      pure none
    else
      let found ← expression inner
      pure (some found)
  let range ← ask (·.rangeFrom start)
  terminator
  make (.returnStatement value) range

def elseBranch (inner : Phrases) : Parse (Option NodeId) := do
  if ← eat (.keyword .elseWord) then
    if ← ask (·.nextIs (.keyword .ifWord)) then
      enter
      let result ← attempt inner.conditional
      leave
      let nested ← answer result
      return some nested
    else
      let found ← block inner
      return some found
  else
    return none

def conditional (inner : Phrases) : Parse NodeId := do
  let start ← here
  let _ ← next
  let condition ← expression inner
  let thenBlock ← block inner
  let otherwise ← elseBranch inner
  makeFrom start (.ifStatement condition thenBlock otherwise)

def loop (inner : Phrases) : Parse NodeId := do
  let start ← here
  let _ ← next
  let condition ← expression inner
  let body ← block inner
  makeFrom start (.whileStatement condition body)

def assignment (inner : Phrases) : Parse NodeId := do
  let start ← here
  let target ← name
  let _ ← next
  let value ← expression inner
  let range ← ask (·.rangeFrom start)
  terminator
  make (.assignment target value) range

def expressionStatement (inner : Phrases) : Parse NodeId := do
  let found ← expression inner
  if ← ask (·.nextIs (.symbol .equal)) then
    fun state => (none, state.report .invalidTarget (.node found))
  else
    let range ← rangeOf found
    terminator
    make (.expressionStatement found) range

/--
A statement. The word `fun` declares a function only before a name, and a name
is assigned to only before an equals sign.
-/
def statement (inner : Phrases) : Parse NodeId := do
  let (kind, after) ← ask fun state => (state.kind, state.kindAfter)
  match kind, after with
  | .keyword .letWord, _ => letDeclaration inner
  | .keyword .varWord, _ => letDeclaration inner
  | .keyword .funWord, .identifier => funDeclaration inner
  | .keyword .returnWord, _ => returnStatement inner
  | .keyword .ifWord, _ => conditional inner
  | .keyword .whileWord, _ => loop inner
  | .identifier, .symbol .equal => assignment inner
  | _, _ => expressionStatement inner

end Grammar

def Phrases.above (inner : Phrases) : Phrases :=
  { tiers := Grammar.tiers inner Tier.all
    unary := Grammar.unary inner
    expression := Grammar.expression inner
    ascription := Grammar.ascription inner
    statement := Grammar.statement inner
    conditional := Grammar.conditional inner
    declaration := Grammar.declaration inner }

def Phrases.upTo : (levels : Nat) → Phrases
  | 0 => .none
  | levels + 1 => .above (upTo levels)

end Toolshed
