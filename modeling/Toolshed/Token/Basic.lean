import Toolshed.Position

namespace Toolshed

/-!
# Tokens

A text is cut into tokens without loss: blanks and comments are tokens too. A
token keeps the text it was written with, the value that text stands for where
it has one, and the range it covers.
-/

inductive Keyword where
  | importWord
  | asWord
  | letWord
  | varWord
  | funWord
  | classWord
  | returnWord
  | ifWord
  | elseWord
  | whileWord
  | trueWord
  | falseWord
  deriving Repr, DecidableEq

namespace Keyword

def all : List Keyword :=
  [.importWord, .asWord, .letWord, .varWord, .funWord, .classWord, .returnWord, .ifWord, .elseWord,
    .whileWord, .trueWord, .falseWord]

def text : Keyword → String
  | .importWord => "import"
  | .asWord => "as"
  | .letWord => "let"
  | .varWord => "var"
  | .funWord => "fun"
  | .classWord => "class"
  | .returnWord => "return"
  | .ifWord => "if"
  | .elseWord => "else"
  | .whileWord => "while"
  | .trueWord => "true"
  | .falseWord => "false"

def ofText? (written : String) : Option Keyword :=
  all.find? fun keyword => keyword.text = written

end Keyword

inductive Symbol where
  | plus
  | minus
  | star
  | slash
  | percent
  | equalEqual
  | bangEqual
  | less
  | lessEqual
  | greater
  | greaterEqual
  | andAnd
  | orOr
  | bang
  | leftParen
  | rightParen
  | leftBrace
  | rightBrace
  | comma
  | colon
  | semicolon
  | dot
  | equal
  | fatArrow
  | arrow
  deriving Repr, DecidableEq

namespace Symbol

def all : List Symbol :=
  [.plus, .minus, .star, .slash, .percent, .equalEqual, .bangEqual, .less, .lessEqual, .greater,
    .greaterEqual, .andAnd, .orOr, .bang, .leftParen, .rightParen, .leftBrace, .rightBrace, .comma,
    .colon, .semicolon, .dot, .equal, .fatArrow, .arrow]

def text : Symbol → String
  | .plus => "+"
  | .minus => "-"
  | .star => "*"
  | .slash => "/"
  | .percent => "%"
  | .equalEqual => "=="
  | .bangEqual => "!="
  | .less => "<"
  | .lessEqual => "<="
  | .greater => ">"
  | .greaterEqual => ">="
  | .andAnd => "&&"
  | .orOr => "||"
  | .bang => "!"
  | .leftParen => "("
  | .rightParen => ")"
  | .leftBrace => "\x7b"
  | .rightBrace => "\x7d"
  | .comma => ","
  | .colon => ":"
  | .semicolon => ";"
  | .dot => "."
  | .equal => "="
  | .fatArrow => "=>"
  | .arrow => "->"

end Symbol

/--
The kinds of tokens. `unrecognised` is a character that starts no token, and
`finish` is the empty token that stands after the last character.
-/
inductive TokenKind where
  | whitespace
  | comment
  | identifier
  | number
  | string
  | keyword (word : Keyword)
  | symbol (sign : Symbol)
  | unrecognised
  | finish
  deriving Repr, DecidableEq

namespace TokenKind

def all : List TokenKind :=
  [.whitespace, .comment, .identifier, .number, .string] ++
    Keyword.all.map .keyword ++ Symbol.all.map .symbol ++ [.unrecognised, .finish]

def text : TokenKind → String
  | .whitespace => "whitespace"
  | .comment => "comment"
  | .identifier => "identifier"
  | .number => "number"
  | .string => "string"
  | .keyword word => word.text
  | .symbol sign => sign.text
  | .unrecognised => "unrecognised input"
  | .finish => "end of input"

def category : TokenKind → String
  | .whitespace => "whitespace"
  | .comment => "comment"
  | .identifier => "identifier"
  | .number => "number"
  | .string => "string"
  | .keyword _ => "keyword"
  | .symbol _ => "symbol"
  | .unrecognised => "error"
  | .finish => "end"

def isKeyword : TokenKind → Bool
  | .keyword _ => true
  | _ => false

def isTrivia : TokenKind → Bool
  | .whitespace => true
  | .comment => true
  | _ => false

end TokenKind

structure Token where
  kind : TokenKind
  raw : String
  /--
  What the text stands for: a name, the digits of a number, the decoded
  characters of a string.
  -/
  value : Option String
  range : Range
  deriving Repr, DecidableEq

end Toolshed
