import Toolshed.Syntax.Node

namespace Toolshed

/-!
# Reading phrases from tokens

Phrases are read from the significant tokens of a file. A reader answers a
result or nothing, and moves a state on: the tokens that are left, the nodes
made so far, the diagnostics so far, and how deeply the phrase being read is
nested.
-/

/--
A token that counts for the grammar, and whether a line break stands before it.
-/
structure Item where
  token : Token
  fresh : Bool
  deriving Repr, DecidableEq

/-- Whether a line break is in whitespace or in a comment. -/
def Token.breaksLine (token : Token) : Bool :=
  match token.kind with
  | .whitespace | .comment => token.raw.toList.contains '\n'
  | _ => false

namespace Item

def kind (item : Item) : TokenKind :=
  item.token.kind

def range (item : Item) : Range :=
  item.token.range

/--
The items among tokens up to the first `finish`, and whether a line break stands
after the last of them. Trivia and unrecognised characters are no items.
-/
def significant : (broken : Bool) → List Token → List Item × Bool
  | broken, [] => ([], broken)
  | broken, token :: rest =>
    match token.kind with
    | .whitespace | .comment | .unrecognised => significant (broken || token.breaksLine) rest
    | .finish => ([], broken)
    | _ =>
      let (items, last) := significant false rest
      (⟨token, broken⟩ :: items, last)

/-- Where the input ends: at the last `finish`, else after the last token. -/
def finishPosition (tokens : List Token) : Position :=
  match tokens.reverse.find? fun token => token.kind = .finish with
  | some token => token.range.stop
  | none =>
    match tokens.getLast? with
    | some token => token.range.stop
    | none => .origin

end Item

structure ParseState where
  rest : List Item
  finish : Item
  previous : Range
  arena : Arena
  diagnostics : List Diagnostic
  depth : Nat
  deriving Repr, DecidableEq

namespace ParseState

def start (tokens : List Token) : ParseState :=
  let (items, broken) := Item.significant false tokens
  let position := Item.finishPosition tokens
  { rest := items
    finish := ⟨⟨.finish, "", none, .point position⟩, broken⟩
    previous := .point .origin
    arena := .empty
    diagnostics := []
    depth := 0 }

def current (state : ParseState) : Item :=
  state.rest.headD state.finish

def kind (state : ParseState) : TokenKind :=
  state.current.kind

def kindAfter (state : ParseState) : TokenKind :=
  (state.rest.tail.headD state.finish).kind

def atFinish (state : ParseState) : Bool :=
  state.kind = .finish

def nextIs (state : ParseState) (kind : TokenKind) : Bool :=
  state.kind = kind

def continues (state : ParseState) (sign : Symbol) : Bool :=
  state.nextIs (.symbol sign) && !state.current.fresh

/-- The state with the next item read; `finish` is never read. -/
def advance (state : ParseState) : ParseState :=
  match state.rest with
  | [] => state
  | item :: rest => { state with rest := rest, previous := item.range }

def report (state : ParseState) (fault : Fault) (place : Place) : ParseState :=
  { state with diagnostics := state.diagnostics ++ [⟨fault, place⟩] }

def rangeFrom (state : ParseState) (start : Range) : Range :=
  start.merge state.previous

def startsStatement : TokenKind → Bool
  | .keyword .letWord | .keyword .varWord | .keyword .funWord | .keyword .classWord
  | .keyword .importWord | .keyword .returnWord | .keyword .ifWord | .keyword .whileWord => true
  | _ => false

/--
Skip items to where the next statement can start: past a semicolon, or before a
closing brace, the end, and, once an item has been skipped, a word that starts a
statement or an item on a new line.
-/
def skip : (moved : Bool) → (previous : Range) → List Item → Range × List Item
  | _, previous, [] => (previous, [])
  | moved, previous, item :: rest =>
    if item.kind = .symbol .rightBrace then
      (previous, item :: rest)
    else if item.kind = .symbol .semicolon then
      (item.range, rest)
    else if moved && (startsStatement item.kind || item.fresh) then
      (previous, item :: rest)
    else
      skip true item.range rest

/--
Take up reading after a statement that failed; `before` counts the items that
were left when it began.
-/
def synchronise (state : ParseState) (before : Nat) : ParseState :=
  let (previous, rest) := skip (state.rest.length < before) state.previous state.rest
  { state with previous := previous, rest := rest }

end ParseState

def Parse (α : Type) : Type :=
  ParseState → Option α × ParseState

namespace Parse

instance : Monad Parse where
  pure value := fun state => (some value, state)
  bind reader next := fun state =>
    match reader state with
    | (some value, after) => next value after
    | (none, after) => (none, after)

def ask (question : ParseState → α) : Parse α := fun state =>
  (some (question state), state)

def refuse (fault : TokenKind → Fault) : Parse α := fun state =>
  (none, state.report (fault state.kind) (.range state.current.range))

def note (fault : Fault) (node : NodeId) : Parse Unit := fun state =>
  (some (), state.report fault (.node node))

def next : Parse Token := fun state =>
  (some state.current.token, state.advance)

def make (node : Node) (range : Range) : Parse NodeId := fun state =>
  (some state.arena.next, { state with arena := state.arena.add node range })

def makeFrom (start : Range) (node : Node) : Parse NodeId := fun state =>
  make node (state.rangeFrom start) state

/-- Enter a level of nesting, unless the limit is reached. -/
def enter : Parse Unit := fun state =>
  if maxNesting ≤ state.depth then
    refuse (fun _ => .tooDeep) state
  else
    (some (), { state with depth := state.depth + 1 })

/-- Leave some levels of nesting; the count stops at zero. -/
def leaveMany (levels : Nat) : Parse Unit := fun state =>
  (some (), { state with depth := state.depth - levels })

def leave : Parse Unit :=
  leaveMany 1

def attempt (phrase : Parse α) : Parse (Option α) := fun state =>
  let (result, after) := phrase state
  (some result, after)

/-- Answer what an attempt has answered. -/
def answer (result : Option α) : Parse α := fun state =>
  (result, state)

def synchronise (before : Nat) : Parse Unit := fun state =>
  (some (), state.synchronise before)

def here : Parse Range :=
  ask fun state => state.current.range

def eat (kind : TokenKind) : Parse Bool := fun state =>
  if state.nextIs kind then (some true, state.advance) else (some false, state)

def expect (kind : TokenKind) : Parse Unit := fun state =>
  if state.nextIs kind then
    (some (), state.advance)
  else
    refuse (.expectedToken kind) state

def name : Parse String := fun state =>
  if state.nextIs .identifier then
    let token := state.current.token
    (some (token.value.getD token.raw), state.advance)
  else
    refuse .expectedIdentifier state

/--
Read the end of a statement: a semicolon, or nothing before a line break, a
closing brace or the end.
-/
def terminator : Parse Unit := fun state =>
  if state.nextIs (.symbol .semicolon) then
    (some (), state.advance)
  else if state.nextIs (.symbol .rightBrace) || state.atFinish || state.current.fresh then
    (some (), state)
  else
    refuse .expectedTerminator state

def separatedUpTo (phrase : Parse α) : (fuel : Nat) → Parse (List α)
  | 0 => do
    let only ← phrase
    return [only]
  | fuel + 1 => do
    let first ← phrase
    if ← eat (.symbol .comma) then
      let others ← separatedUpTo phrase fuel
      return first :: others
    else
      return [first]

def separated (phrase : Parse α) : Parse (List α) := fun state =>
  separatedUpTo phrase state.rest.length state

end Parse

end Toolshed
