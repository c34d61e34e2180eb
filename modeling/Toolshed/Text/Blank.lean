namespace Toolshed

/-!
# White space of names typed by users

Option names are read without the white space around them. White space is the
Unicode property `White_Space`, which has twenty-five characters.
-/

namespace Blank

def isBlank (character : Char) : Bool :=
  let code := character.toNat
  (0x09 ≤ code ∧ code ≤ 0x0d) ∨ code = 0x20 ∨ code = 0x85 ∨ code = 0xa0 ∨ code = 0x1680 ∨
    (0x2000 ≤ code ∧ code ≤ 0x200a) ∨ code = 0x2028 ∨ code = 0x2029 ∨ code = 0x202f ∨
    code = 0x205f ∨ code = 0x3000

def trim (text : String) : String :=
  String.ofList
    ((text.toList.dropWhile isBlank).reverse.dropWhile isBlank).reverse

def allBlank (text : String) : Bool :=
  text.toList.all isBlank

def lowerAscii (character : Char) : Char :=
  if 'A' ≤ character ∧ character ≤ 'Z' then
    Char.ofNat (character.toNat + 32)
  else
    character

def folded (text : String) : String :=
  String.ofList ((trim text).toList.map lowerAscii)

end Blank

end Toolshed
