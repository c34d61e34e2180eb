import Toolshed.Position
import Toolshed.Text.Escaped

namespace Toolshed

/-!
# JSON

Values that other programs read, in a compact text and in one with a line for
each entry. Only what has to be escaped is.
-/

/--
A JSON value; a number is kept as it is written, and the fields of an object in
their order.
-/
inductive Json where
  | null
  | boolean (value : Bool)
  | number (digits : String)
  | string (value : String)
  | array (entries : List Json)
  | object (fields : List (String × Json))
  deriving Repr, Inhabited

namespace Json

def natural (value : Nat) : Json :=
  .number (toString value)

def quotedCharacter (character : Char) : List Char :=
  if character = '"' then
    ['\\', '"']
  else if character = '\\' then
    ['\\', '\\']
  else if character.toNat = 0x08 then
    ['\\', 'b']
  else if character = '\t' then
    ['\\', 't']
  else if character = '\n' then
    ['\\', 'n']
  else if character.toNat = 0x0c then
    ['\\', 'f']
  else if character = '\r' then
    ['\\', 'r']
  else if character.toNat < 0x20 then
    ['\\', 'u'] ++ Escaped.fourDigits character
  else
    [character]

def quote (text : String) : String :=
  String.ofList ('"' :: text.toList.flatMap quotedCharacter ++ ['"'])

def atom : Json → String
  | .null => "null"
  | .boolean true => "true"
  | .boolean false => "false"
  | .number digits => digits
  | .string value => quote value
  | .array _ => "[]"
  | .object _ => "\x7b\x7d"

mutual

def compact : Json → String
  | .array entries => "[" ++ ",".intercalate (compactEntries entries) ++ "]"
  | .object fields => "\x7b" ++ ",".intercalate (compactFields fields) ++ "\x7d"
  | value => value.atom

def compactEntries : List Json → List String
  | [] => []
  | first :: rest => first.compact :: compactEntries rest

def compactFields : List (String × Json) → List String
  | [] => []
  | (key, value) :: rest => (quote key ++ ":" ++ value.compact) :: compactFields rest

end

def lineBreak (depth : Nat) : String :=
  "\n" ++ String.ofList (List.replicate (2 * depth) ' ')

def onLines (depth : Nat) (opening closing : String) (entries : List String) : String :=
  if entries.isEmpty then
    opening ++ closing
  else
    opening ++ lineBreak (depth + 1) ++ ("," ++ lineBreak (depth + 1)).intercalate entries ++
      lineBreak depth ++ closing

mutual

def spread (depth : Nat) : Json → String
  | .array entries => onLines depth "[" "]" (spreadEntries (depth + 1) entries)
  | .object fields => onLines depth "\x7b" "\x7d" (spreadFields (depth + 1) fields)
  | value => value.atom

def spreadEntries (depth : Nat) : List Json → List String
  | [] => []
  | first :: rest => first.spread depth :: spreadEntries depth rest

def spreadFields (depth : Nat) : List (String × Json) → List String
  | [] => []
  | (key, value) :: rest => (quote key ++ ": " ++ value.spread depth) :: spreadFields depth rest

end

def field? : Json → String → Option Json
  | .object fields, name => fields.lookup name
  | _, _ => none

end Json

/-- A position as clients see it. -/
def Position.json (position : Position) : Json :=
  .object [("line", .natural position.line), ("character", .natural position.character)]

end Toolshed
