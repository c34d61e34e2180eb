import Toolshed.Diagnostic
import Toolshed.Token.Lexeme

namespace Toolshed

/-!
# Tokens of a text

`Token.scan` cuts a whole text into tokens, lexeme by lexeme. Scanning never
fails: faults are noted and scanning goes on. The last token, and only it, is
the empty one of kind `finish`.
-/

structure Scan where
  tokens : List Token
  diagnostics : List Diagnostic
  deriving Repr, DecidableEq

namespace Token

def ofLexeme (start : Position) (first : Char) (lexeme : Lexeme) : Token :=
  let raw := first :: lexeme.tail
  ⟨lexeme.kind, String.ofList raw, lexeme.value, ⟨start, start.after raw⟩⟩

def diagnosticOf (start : Position) (raw : List Char) (blemish : Blemish) : Diagnostic :=
  let range : Range := ⟨start.after (raw.take blemish.start), start.after (raw.take blemish.stop)⟩
  ⟨blemish.fault, .range range⟩

def finish (position : Position) : Token :=
  ⟨.finish, "", none, .point position⟩

def scanFrom (start : Position) : List Char → Scan
  | [] => ⟨[finish start], []⟩
  | first :: rest =>
    let lexeme := Lexeme.read first rest
    let raw := first :: lexeme.tail
    let later := scanFrom (start.after raw) (rest.drop lexeme.tail.length)
    ⟨ofLexeme start first lexeme :: later.tokens,
      lexeme.blemishes.map (diagnosticOf start raw) ++ later.diagnostics⟩
termination_by characters => characters.length
decreasing_by
  simp only [List.length_drop, List.length_cons]
  omega

def scan (text : String) : Scan :=
  scanFrom .origin text.toList

end Token

end Toolshed
