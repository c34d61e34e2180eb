import Mathlib.Data.List.Basic
import Toolshed.Double.Decimal
import Toolshed.Script.Render

namespace Toolshed

/-!
# Symbols of the script language

The text of a script is a row of words, numbers, texts and marks with blanks
between them. A mark is the longest one that the characters allow, so `--` is
never two signs. Which characters beyond the first 128 may stand in words is left
open.
-/

namespace Script

variable {character : Char}

/-- The blanks of the script language, line breaks among them. -/
def isBlank (character : Char) : Bool :=
  [0x9, 0xa, 0xb, 0xc, 0xd, 0x20, 0xa0, 0x1680, 0x2028, 0x2029, 0x202f, 0x205f, 0x3000,
    0xfeff].contains character.toNat ||
    0x2000 ≤ character.toNat && character.toNat ≤ 0x200a

def isLineBreak (character : Char) : Bool :=
  [0xa, 0xd, 0x2028, 0x2029].contains character.toNat

/-- The characters that words may start with and go on with. -/
structure Alphabet where
  isStart : Char → Bool
  isPart : Char → Bool
  ascii_isStart :
    ∀ character,
      character.toNat < 128 →
      isStart character = (character.isAlpha || character = '$' || character = '_')
  ascii_isPart :
    ∀ character,
      character.toNat < 128 →
      isPart character = (character.isAlphanum || character = '$' || character = '_')
  isPart_of_isStart : ∀ character, isStart character = true → isPart character = true
  not_isBlank_of_isPart : ∀ character, isPart character = true → isBlank character = false

theorem isAlphanum_of_isAlpha
    (isStart : (character.isAlpha || character = '$' || character = '_') = true) :
    (character.isAlphanum || character = '$' || character = '_') = true := by
  simp only [Char.isAlphanum]
  grind

theorem not_isBlank_of_isAlphanum
    (isPart : (character.isAlphanum || character = '$' || character = '_') = true) :
    isBlank character = false := by
  by_contra blank
  have listed : character.toNat ∈
      [0x9, 0xa, 0xb, 0xc, 0xd, 0x20, 0xa0, 0x1680, 0x2028, 0x2029, 0x202f, 0x205f, 0x3000,
        0xfeff] ++ List.range' 0x2000 11 := by
    simp only [isBlank, Bool.not_eq_false, Bool.or_eq_true, Bool.and_eq_true,
      decide_eq_true_eq, List.contains_iff_mem] at blank
    refine List.mem_append.mpr (blank.imp_right fun bounds => ?_)
    rw [List.mem_range'_1]
    omega
  have all : ∀ code ∈
      [0x9, 0xa, 0xb, 0xc, 0xd, 0x20, 0xa0, 0x1680, 0x2028, 0x2029, 0x202f, 0x205f, 0x3000,
        0xfeff] ++ List.range' 0x2000 11,
      ((Char.ofNat code).isAlphanum || Char.ofNat code = '$' || Char.ofNat code = '_') =
        false := by
    decide
  rw [← Char.ofNat_toNat character, all _ listed] at isPart
  exact Bool.noConfusion isPart

/-- The alphabet that has nothing beyond the first 128 characters. -/
def Alphabet.ascii : Alphabet where
  isStart character := character.isAlpha || character = '$' || character = '_'
  isPart character := character.isAlphanum || character = '$' || character = '_'
  ascii_isStart _ _ := rfl
  ascii_isPart _ _ := rfl
  isPart_of_isStart _ := isAlphanum_of_isAlpha
  not_isBlank_of_isPart _ := not_isBlank_of_isAlphanum

/-- A symbol of a script. -/
inductive Symbol where
  | word (name : String)
  | number (value : Double)
  | text (value : String)
  | mark (characters : String)
  deriving Repr, DecidableEq

/-- The marks of the script language, longer ones first. -/
def marks : List String :=
  [">>>=",
    "...", "===", "!==", "**=", "<<=", ">>=", ">>>", "&&=", "||=", "??=",
    "=>", "==", "!=", "<=", ">=", "&&", "||", "??", "?.", "++", "--", "+=", "-=", "*=", "%=",
    "&=", "|=", "^=", "/=", "<<", ">>", "**",
    "\x7b", "\x7d", "(", ")", "[", "]", ".", ";", ",", "<", ">", "+", "-", "*", "/", "%", "&",
    "|", "^", "!", "~", "?", ":", "="]

def readMark (characters : List Char) : Option (Symbol × List Char) :=
  if "//".toList.isPrefixOf characters || "/*".toList.isPrefixOf characters then
    none
  else
    match marks.find? fun mark => mark.toList.isPrefixOf characters with
    | none => none
    | some mark =>
      let rest := characters.drop mark.toList.length
      if mark = "." && rest.head?.any Decimal.isDigit then
        none
      else
        some (.mark mark, rest)

/--
Read a number: digits with an optional fraction. No zero may stand before other
digits, and no word may follow at once.
-/
def readNumber (alphabet : Alphabet) (characters : List Char) : Option (Symbol × List Char) :=
  let (whole, afterWhole) := Decimal.splitDigits characters
  let (fraction, after) := Decimal.splitFraction afterWhole
  if whole.head? = some '0' && whole.length ≠ 1 then
    none
  else if after.head?.any alphabet.isStart then
    none
  else
    some (.number (Decimal.toDouble ⟨false, Decimal.numeral (whole ++ fraction),
      -fraction.length⟩), after)

def hexValue? (digit : Char) : Option Nat :=
  if '0' ≤ digit && digit ≤ '9' then
    some (digit.toNat - '0'.toNat)
  else if 'a' ≤ digit && digit ≤ 'f' then
    some (digit.toNat - 'a'.toNat + 10)
  else if 'A' ≤ digit && digit ≤ 'F' then
    some (digit.toNat - 'A'.toNat + 10)
  else
    none

/-- The character with a code of four hexadecimal digits. -/
def coded? (first second third fourth : Char) : Option Char := do
  let code :=
    4096 * (← hexValue? first) + 256 * (← hexValue? second) + 16 * (← hexValue? third) +
      (← hexValue? fourth)
  if code.isValidChar then some (Char.ofNat code) else none

/--
The character that a backslash and another character stand for. Digits, `x` and `u`
start longer escapes.
-/
def escaped? (character : Char) : Option Char :=
  if character = 'b' then some '\x08'
  else if character = 't' then some '\t'
  else if character = 'n' then some '\n'
  else if character = 'v' then some '\x0b'
  else if character = 'f' then some '\x0c'
  else if character = 'r' then some '\r'
  else if Decimal.isDigit character || character = 'x' || character = 'u' ||
      isLineBreak character then
    none
  else some character

/-- Read the rest of a text after its first quotation mark. -/
def readText : List Char → Option (List Char × List Char)
  | [] => none
  | '"' :: rest => some ([], rest)
  | '\\' :: 'u' :: first :: second :: third :: fourth :: rest => do
    let character ← coded? first second third fourth
    let (body, after) ← readText rest
    return (character :: body, after)
  | '\\' :: character :: rest => do
    let character ← escaped? character
    let (body, after) ← readText rest
    return (character :: body, after)
  | character :: rest => do
    if character = '\n' || character = '\r' || character = '\\' then
      none
    else
      let (body, after) ← readText rest
      return (character :: body, after)

/-- Read the first symbol of some characters, after blanks. -/
def next (alphabet : Alphabet) (characters : List Char) : Option (Symbol × List Char) :=
  match characters.dropWhile isBlank with
  | [] => none
  | first :: rest =>
    if alphabet.isStart first then
      some (.word (String.ofList (first :: rest.takeWhile alphabet.isPart)),
        rest.dropWhile alphabet.isPart)
    else if Decimal.isDigit first then
      readNumber alphabet (first :: rest)
    else if first = '"' then
      (readText rest).map fun (body, after) => (.text (String.ofList body), after)
    else
      readMark (first :: rest)

variable {alphabet : Alphabet} {rest : List Char}

theorem next_cons_of_isBlank (blank : isBlank character = true) :
    next alphabet (character :: rest) = next alphabet rest := by
  unfold next
  rw [List.dropWhile_cons_of_pos blank]

theorem next_append_of_isBlank {blanks : List Char}
    (blank : ∀ character ∈ blanks, isBlank character = true) :
    next alphabet (blanks ++ rest) = next alphabet rest := by
  induction blanks with
  | nil => rfl
  | cons first later ih =>
    obtain ⟨here, there⟩ := List.forall_mem_cons.mp blank
    rw [List.cons_append, next_cons_of_isBlank here, ih there]

/-- A name: a word that may be a property. -/
structure Alphabet.IsName (alphabet : Alphabet) (name : String) : Prop where
  start : ∃ first later, name.toList = first :: later ∧ alphabet.isStart first = true
  parts : ∀ character ∈ name.toList, alphabet.isPart character = true

def Alphabet.Ends (alphabet : Alphabet) (rest : List Char) : Prop :=
  ∀ character ∈ rest.head?, alphabet.isPart character = false

theorem Alphabet.ends_cons (outside : alphabet.isPart character = false) :
    alphabet.Ends (character :: rest) := by
  intro other same
  obtain rfl := Option.some.inj same
  exact outside

theorem next_word {name : String} (isName : alphabet.IsName name) (ends : alphabet.Ends rest) :
    next alphabet (name.toList ++ rest) = some (.word name, rest) := by
  obtain ⟨⟨first, later, split, isStart⟩, parts⟩ := isName
  rw [split] at parts
  obtain ⟨isPart, areParts⟩ := List.forall_mem_cons.mp parts
  have taken : (later ++ rest).takeWhile alphabet.isPart = later := by
    rw [List.takeWhile_append_of_pos areParts]
    cases rest with
    | nil => simp
    | cons head tail => simp [ends head rfl]
  have dropped : (later ++ rest).dropWhile alphabet.isPart = rest := by
    rw [List.dropWhile_append_of_pos areParts]
    cases rest with
    | nil => rfl
    | cons head tail => simp [ends head rfl]
  have notBlank := alphabet.not_isBlank_of_isPart first isPart
  have whole : String.ofList (first :: later) = name := by
    rw [← split, String.ofList_toList]
  unfold next
  rw [split, List.cons_append, List.dropWhile_cons_of_neg (by simp [notBlank])]
  simp only [isStart, taken, dropped, whole, if_true]

theorem next_mark {first : Char} (ascii : first.toNat < 128)
    (other :
      (isBlank first || first.isAlpha || first = '$' || first = '_' || Decimal.isDigit first ||
        first = '"') = false) :
    next alphabet (first :: rest) = readMark (first :: rest) := by
  simp only [Bool.or_eq_false_iff, decide_eq_false_iff_not] at other
  obtain ⟨⟨⟨⟨⟨notBlank, notLetter⟩, notDollar⟩, notLine⟩, notDigit⟩, notQuote⟩ := other
  have notStart : alphabet.isStart first = false := by
    rw [alphabet.ascii_isStart first ascii]
    simp [notLetter, notDollar, notLine]
  unfold next
  rw [List.dropWhile_cons_of_neg (by simp [notBlank])]
  simp [notStart, notDigit, notQuote]

attribute [local simp] readMark

/-- The marks that no mark continues. -/
def closedMarks : List String :=
  ["(", ")", "\x7b", "\x7d", ",", ";", ":"]

theorem next_closed (mark : String) (member : mark ∈ closedMarks) :
    next alphabet (mark.toList ++ rest) = some (.mark mark, rest) := by
  simp only [closedMarks, List.mem_cons, List.not_mem_nil, or_false] at member
  rcases member with rfl | rfl | rfl | rfl | rfl | rfl | rfl
  all_goals
    simp only [String.reduceToList]
    refine (next_mark (by decide) rfl).trans ?_
    simp [marks]

theorem next_minus (notMinus : rest.head? ≠ some '-') (notEqual : rest.head? ≠ some '=') :
    next alphabet ('-' :: rest) = some (.mark "-", rest) := by
  refine (next_mark (by decide) rfl).trans ?_
  cases rest with
  | nil => simp [marks]
  | cons first later =>
    have notMinus : first ≠ '-' := by simpa using notMinus
    have notEqual : first ≠ '=' := by simpa using notEqual
    simp [marks, notMinus.symm, notEqual.symm]

def Leading (character : Char) : Prop :=
  character ∉ "=<>*/&|+".toList

def operatorMarks : List String :=
  ["-", "=", "||", "&&", "===", "!==", "<", "<=", ">", ">=", "+", "*", "/", "%", "!"]

theorem next_operatorMark {mark : String} (member : mark ∈ operatorMarks)
    (leading : ∀ character ∈ rest.head?, Leading character)
    (unsigned : mark = "-" → rest.head? ≠ some '-') :
    next alphabet (mark.toList ++ rest) = some (.mark mark, rest) := by
  have noEqual : rest.head? ≠ some '=' := fun isEqual => leading '=' isEqual (by decide)
  rcases List.mem_cons.mp member with rfl | member
  · exact next_minus (unsigned rfl) noEqual
  simp only [List.mem_cons, List.not_mem_nil, or_false] at member
  cases rest with
  | nil =>
    rcases member with
      rfl | rfl | rfl | rfl | rfl | rfl | rfl | rfl | rfl | rfl | rfl | rfl | rfl | rfl
    all_goals
      simp only [String.reduceToList]
      refine (next_mark (by decide) rfl).trans ?_
      simp [marks]
  | cons first later =>
    have others := leading first rfl
    simp only [Leading, String.reduceToList, List.mem_cons, not_or, eq_comm (a := first)] at others
    rcases member with
      rfl | rfl | rfl | rfl | rfl | rfl | rfl | rfl | rfl | rfl | rfl | rfl | rfl | rfl
    all_goals
      simp only [String.reduceToList]
      refine (next_mark (by decide) rfl).trans ?_
      simp [marks, others]

theorem next_point (notPoint : rest.head? ≠ some '.')
    (notDigit : rest.head?.any Decimal.isDigit = false) :
    next alphabet ('.' :: rest) = some (.mark ".", rest) := by
  refine (next_mark (by decide) rfl).trans ?_
  cases rest with
  | nil => simp [marks]
  | cons first later =>
    have differs : first ≠ '.' := by simpa using notPoint
    have outside : Decimal.isDigit first = false := by simpa using notDigit
    simp [marks, differs.symm, outside]

def ofFourDigits? : List Char → Option Char
  | [first, second, third, fourth] => coded? first second third fourth
  | _ => none

theorem ofFourDigits?_fourDigits
    (short : character.toNat < 0x20 ∨ character.toNat = 0x2028 ∨ character.toNat = 0x2029) :
    ofFourDigits? (Escaped.fourDigits character) = some character := by
  have low : ∀ code < 0x20,
      ofFourDigits? (Escaped.fourDigits (Char.ofNat code)) = some (Char.ofNat code) := by
    decide
  have high : ∀ code ∈ [0x2028, 0x2029],
      ofFourDigits? (Escaped.fourDigits (Char.ofNat code)) = some (Char.ofNat code) := by
    decide
  rw [← Char.ofNat_toNat character]
  rcases short with isLow | isHigh
  · exact low character.toNat isLow
  · exact high character.toNat (by simpa using isHigh)

theorem readText_unicode {digits : List Char} (decoded : ofFourDigits? digits = some character) :
    readText ('\\' :: 'u' :: digits ++ rest) =
      (readText rest).map fun (body, after) => (character :: body, after) := by
  match digits, decoded with
  | [first, second, third, fourth], decoded =>
    replace decoded : coded? first second third fourth = some character := decoded
    simp only [List.cons_append, List.nil_append, readText, decoded]
    cases readText rest <;> rfl

theorem readText_quotedCharacter (character : Char) :
    readText (quotedCharacter character ++ rest) =
      (readText rest).map fun (body, after) => (character :: body, after) := by
  have escape : ∀ mark value, mark ≠ 'u' → escaped? mark = some value →
      readText ('\\' :: mark :: rest) =
        (readText rest).map fun (body, after) => (value :: body, after) := by
    intro mark value notUnicode isEscape
    rw [readText.eq_def]
    simp [notUnicode, isEscape]
    cases readText rest <;> rfl
  unfold quotedCharacter
  split
  · subst character
    exact escape '"' '"' (by decide) (by decide)
  · split
    · subst character
      exact escape '\\' '\\' (by decide) (by decide)
    · split
      · subst character
        exact escape 'n' '\n' (by decide) (by decide)
      · split
        · subst character
          exact escape 'r' '\r' (by decide) (by decide)
        · split
          · subst character
            exact escape 't' '\t' (by decide) (by decide)
          · split
            · rename_i coded
              refine readText_unicode (ofFourDigits?_fourDigits ?_)
              simpa [or_assoc] using coded
            · rename_i notQuote notSlash notLine notReturn _ _
              rw [readText.eq_def]
              simp [notSlash, notLine, notReturn]
              cases readText rest <;> rfl

theorem readText_quoted (text : List Char) :
    readText (text.flatMap quotedCharacter ++ '"' :: rest) = some (text, rest) := by
  induction text with
  | nil => simp [readText]
  | cons first later ih =>
    rw [List.flatMap_cons, List.append_assoc, readText_quotedCharacter, ih]
    rfl

theorem next_quote (text : String) :
    next alphabet ((quote text).toList ++ rest) = some (.text text, rest) := by
  have notStart : alphabet.isStart '"' = false := by
    rw [alphabet.ascii_isStart _ (by decide)]
    decide
  have written : (quote text).toList ++ rest =
      '"' :: (text.toList.flatMap quotedCharacter ++ '"' :: rest) := by
    simp [quote]
  unfold next
  rw [written, List.dropWhile_cons_of_neg (by decide)]
  simp only [notStart, show Decimal.isDigit '"' = false from by decide, readText_quoted,
    Option.map_some, String.ofList_toList, if_true, Bool.false_eq_true, if_false]

end Script

end Toolshed
