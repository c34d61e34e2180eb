import Toolshed.Fault

namespace Toolshed

/-!
# Lexemes

A lexeme is the longest piece at the front of a text that makes one token.
`Lexeme.read` finds it from the first character and the text after it; what is
wrong inside a lexeme is noted by offsets into it.
-/

structure Blemish where
  start : Nat
  stop : Nat
  fault : Fault
  deriving Repr, DecidableEq

/--
One token without its place in the text: `tail` has its characters after the
first.
-/
structure Lexeme where
  kind : TokenKind
  tail : List Char
  value : Option String
  blemishes : List Blemish
  deriving Repr, DecidableEq

namespace Lexeme

def isSpace (character : Char) : Bool :=
  character = ' ' ∨ character = '\t' ∨ character = '\r' ∨ character = '\n'

def isDigit (character : Char) : Bool :=
  '0' ≤ character ∧ character ≤ '9'

def isNameStart (character : Char) : Bool :=
  ('a' ≤ character ∧ character ≤ 'z') ∨ ('A' ≤ character ∧ character ≤ 'Z') ∨ character = '_'

def isNamePart (character : Char) : Bool :=
  isNameStart character ∨ isDigit character

def plain (kind : TokenKind) (tail : List Char) : Lexeme :=
  ⟨kind, tail, none, []⟩

def space (rest : List Char) : Lexeme :=
  plain .whitespace (rest.takeWhile isSpace)

def lineComment (rest : List Char) : Lexeme :=
  plain .comment (rest.takeWhile fun character => character ≠ '\n')

def commentBody : List Char → List Char × Bool
  | [] => ([], false)
  | '*' :: '/' :: _ => (['*', '/'], true)
  | character :: rest =>
    let (taken, closed) := commentBody rest
    (character :: taken, closed)

def blockComment (rest : List Char) : Lexeme :=
  let (taken, closed) := commentBody rest
  let tail := '*' :: taken
  ⟨.comment, tail, none, if closed then [] else [⟨0, tail.length + 1, .openComment⟩]⟩

def escape? : Char → Option Char
  | '"' => some '"'
  | '\\' => some '\\'
  | 'n' => some '\n'
  | 't' => some '\t'
  | 'r' => some '\r'
  | _ => none

/--
What a string holds after its opening mark: its characters as written and as
decoded, the faults of its escapes, and whether its closing mark was found.
-/
structure StringBody where
  taken : List Char
  decoded : List Char
  blemishes : List Blemish
  closed : Bool
  deriving Repr, DecidableEq

/--
Read a string up to its closing mark, the end of its line or the end of the
text. A backslash right before the end of the line or text stands for nothing,
and one before any other character that it does not escape is a fault and stands
for that character.
-/
def stringBody : (offset : Nat) → List Char → StringBody
  | _, [] => ⟨[], [], [], false⟩
  | _, '"' :: _ => ⟨['"'], [], [], true⟩
  | _, '\n' :: _ => ⟨[], [], [], false⟩
  | _, ['\\'] => ⟨['\\'], [], [], false⟩
  | _, '\\' :: '\n' :: _ => ⟨['\\'], [], [], false⟩
  | offset, '\\' :: escaped :: rest =>
    let body := stringBody (offset + 2) rest
    match escape? escaped with
    | some meant =>
      { body with taken := '\\' :: escaped :: body.taken, decoded := meant :: body.decoded }
    | none =>
      { body with
        taken := '\\' :: escaped :: body.taken
        decoded := escaped :: body.decoded
        blemishes := ⟨offset, offset + 2, .invalidEscape escaped⟩ :: body.blemishes }
  | offset, character :: rest =>
    let body := stringBody (offset + 1) rest
    { body with taken := character :: body.taken, decoded := character :: body.decoded }

def string (rest : List Char) : Lexeme :=
  let body := stringBody 1 rest
  let openString :=
    if body.closed then [] else [⟨0, body.taken.length + 1, .openString⟩]
  ⟨.string, body.taken, some (String.ofList body.decoded), body.blemishes ++ openString⟩

def fraction : List Char → List Char
  | '.' :: digit :: rest =>
    if isDigit digit then '.' :: digit :: rest.takeWhile isDigit else []
  | _ => []

def number (first : Char) (rest : List Char) : Lexeme :=
  let whole := rest.takeWhile isDigit
  let tail := whole ++ fraction (rest.drop whole.length)
  ⟨.number, tail, some (String.ofList (first :: tail)), []⟩

def word (first : Char) (rest : List Char) : Lexeme :=
  let tail := rest.takeWhile isNamePart
  let written := String.ofList (first :: tail)
  let kind :=
    match Keyword.ofText? written with
    | some keyword => .keyword keyword
    | none => .identifier
  ⟨kind, tail, some written, []⟩

def symbol? (first : Char) (rest : List Char) : Option (Symbol × List Char) :=
  match first, rest with
  | '(', _ => some (.leftParen, [])
  | ')', _ => some (.rightParen, [])
  | '\x7b', _ => some (.leftBrace, [])
  | '\x7d', _ => some (.rightBrace, [])
  | ',', _ => some (.comma, [])
  | ':', _ => some (.colon, [])
  | ';', _ => some (.semicolon, [])
  | '.', _ => some (.dot, [])
  | '+', _ => some (.plus, [])
  | '*', _ => some (.star, [])
  | '/', _ => some (.slash, [])
  | '%', _ => some (.percent, [])
  | '-', '>' :: _ => some (.arrow, ['>'])
  | '-', _ => some (.minus, [])
  | '!', '=' :: _ => some (.bangEqual, ['='])
  | '!', _ => some (.bang, [])
  | '<', '=' :: _ => some (.lessEqual, ['='])
  | '<', _ => some (.less, [])
  | '>', '=' :: _ => some (.greaterEqual, ['='])
  | '>', _ => some (.greater, [])
  | '&', '&' :: _ => some (.andAnd, ['&'])
  | '|', '|' :: _ => some (.orOr, ['|'])
  | '=', '=' :: _ => some (.equalEqual, ['='])
  | '=', '>' :: _ => some (.fatArrow, ['>'])
  | '=', _ => some (.equal, [])
  | _, _ => none

def symbol (first : Char) (rest : List Char) : Lexeme :=
  match symbol? first rest with
  | some (sign, tail) => plain (.symbol sign) tail
  | none => ⟨.unrecognised, [], none, [⟨0, 1, .unrecognisedCharacter first⟩]⟩

def read (first : Char) (rest : List Char) : Lexeme :=
  if isSpace first then
    space rest
  else if first = '/' ∧ rest.head? = some '/' then
    lineComment rest
  else if first = '/' ∧ rest.head? = some '*' then
    blockComment rest.tail
  else if first = '"' then
    string rest
  else if isDigit first then
    number first rest
  else if isNameStart first then
    word first rest
  else
    symbol first rest

end Lexeme

end Toolshed
