import Toolshed.Double.Shortest
import Toolshed.Text.Escaped

namespace Toolshed

/-!
# Literals in scripts

Numbers are written without an exponent, and texts between quotation marks.
-/

namespace Script

def numberText (number : Double) : String :=
  if number.isNaN then
    "NaN"
  else
    let size := if number.isInfinite then "Infinity" else number.sizeText
    if number.isNegative then "-" ++ size else size

/--
The characters that stand for a character inside quotation marks. Line
separators and control characters are escaped.
-/
def quotedCharacter (character : Char) : List Char :=
  if character = '"' then
    ['\\', '"']
  else if character = '\\' then
    ['\\', '\\']
  else if character = '\n' then
    ['\\', 'n']
  else if character = '\r' then
    ['\\', 'r']
  else if character = '\t' then
    ['\\', 't']
  else if character.toNat < 0x20 || character.toNat = 0x2028 || character.toNat = 0x2029 then
    ['\\', 'u'] ++ Escaped.fourDigits character
  else
    [character]

def quote (text : String) : String :=
  String.ofList ('"' :: text.toList.flatMap quotedCharacter ++ ['"'])

end Script

end Toolshed
