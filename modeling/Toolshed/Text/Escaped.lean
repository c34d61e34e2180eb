namespace Toolshed

/-!
# Characters as messages show them

A message shows a printable ASCII character as it is and every other one by an
escape, so that a message is always one line of plain text.
-/

namespace Escaped

def hexadecimal (value : Nat) : String :=
  String.ofList (Nat.toDigits 16 value)

def fourDigits (shown : Char) : List Char :=
  let digits := Nat.toDigits 16 shown.toNat
  List.replicate (4 - digits.length) '0' ++ digits

def character (shown : Char) : String :=
  if shown = '\t' then "\\t"
  else if shown = '\r' then "\\r"
  else if shown = '\n' then "\\n"
  else if shown = '\x27' ∨ shown = '"' ∨ shown = '\\' then
    "\\" ++ shown.toString
  else if 0x20 ≤ shown.toNat ∧ shown.toNat ≤ 0x7e then
    shown.toString
  else
    "\\u\x7b" ++ hexadecimal shown.toNat ++ "\x7d"

end Escaped

end Toolshed
