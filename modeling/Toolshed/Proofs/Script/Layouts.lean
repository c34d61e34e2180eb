import Mathlib.Data.List.Forall2
import Toolshed.Proofs.Script.Lexeme

namespace Toolshed

/-!
# The layouts of a script

The pieces of a script write its signs in both layouts. An expression may end with
a word or a numeral, which limits what may follow it; all else ends with a mark
that nothing goes on with.
-/

namespace Script

variable {alphabet : Alphabet} {rest pieces : List Piece} {signs later : List Sign} {depth : Nat}
variable {statements : List Statement} {suits : Option Char → Prop} {tail : List Piece}

section

variable (alphabet : Alphabet)

mutual

def Expression.Named : Expression → Prop
  | .number _ | .string _ | .boolean _ | .undefined => True
  | .identifier name => alphabet.IsName name
  | .binary _ left right => left.Named ∧ right.Named
  | .unary _ operand => operand.Named
  | .call callee arguments => callee.Named ∧ NamedArguments arguments
  | .member object property => object.Named ∧ alphabet.IsName property
  | .function function => function.Named
  | .object properties => NamedProperties properties
  | .assignment target value =>
    (alphabet.IsName target ∨ target = "module.exports") ∧ value.Named

def NamedArguments : List Expression → Prop
  | [] => True
  | first :: rest => first.Named ∧ NamedArguments rest

def Function.Named : Function → Prop
  | .make name parameters body =>
    (∀ given ∈ name, alphabet.IsName given) ∧
      (∀ parameter ∈ parameters, alphabet.IsName parameter) ∧ NamedStatements body

def NamedProperties : List Property → Prop
  | [] => True
  | .value key value :: rest | .getter key value :: rest =>
    alphabet.IsName key ∧ value.Named ∧ NamedProperties rest

def Statement.Named : Statement → Prop
  | .variable _ name initial => alphabet.IsName name ∧ initial.Named
  | .function function => function.Named
  | .returnNothing => True
  | .returnValue value => value.Named
  | .conditional condition thenBody elseBody =>
    condition.Named ∧ NamedStatements thenBody ∧ NamedBranch elseBody
  | .loop condition body => condition.Named ∧ NamedStatements body
  | .block body => NamedStatements body
  | .expression expression => expression.Named

def NamedBranch : Option (List Statement) → Prop
  | none => True
  | some body => NamedStatements body

def NamedStatements : List Statement → Prop
  | [] => True
  | first :: rest => first.Named ∧ NamedStatements rest

end

end

def enclosed (needed : Bool) (signs : List Sign) : List Sign :=
  if needed then .mark "(" :: (signs ++ [.mark ")"]) else signs

def separated : List (List Sign) → List Sign
  | [] => []
  | [only] => only
  | first :: rest => first ++ .mark "," :: separated rest

def bodySigns (statements : List Sign) : List Sign :=
  .mark "\x7b" :: (statements ++ [.mark "\x7d"])

def sizeSign (value : Double) : Sign :=
  if value.isInfinite then .word "Infinity" else .numeral value

def numberSigns (value : Double) : List Sign :=
  if value.isNaN then
    [.word "NaN"]
  else if value.isNegative then
    [.mark "-", sizeSign value]
  else
    [sizeSign value]

def targetSigns (target : String) : List Sign :=
  if target = "module.exports" then
    [.word "module", .mark ".", .word "exports"]
  else
    [.word target]

def firstOf (signs : List Sign) : Option Char :=
  signs.head?.bind fun sign => sign.text.toList.head?

def unarySigns (operator : UnaryOp) (operand : List Sign) : List Sign :=
  .mark operator.symbol :: enclosed (operator = .negate && firstOf operand = some '-') operand

mutual

def Expression.signs : Expression → List Sign
  | .number value => numberSigns value
  | .string value => [.quoted value]
  | .boolean value => [.word (if value then "true" else "false")]
  | .undefined => [.word "undefined"]
  | .identifier name => [.word name]
  | .binary operator left right =>
    enclosed (left.precedence < operatorPrecedence operator) left.signs ++
      .mark (operatorText operator) ::
        enclosed (right.precedence < operatorPrecedence operator + 1) right.signs
  | .unary operator operand =>
    unarySigns operator (enclosed (operand.precedence < 14) operand.signs)
  | .call callee arguments =>
    enclosed (callee.precedence < 17) callee.signs ++
      .mark "(" :: (separated (argumentSigns arguments) ++ [.mark ")"])
  | .member object property =>
    enclosed (object.isNumber || object.precedence < 17) object.signs ++
      [.mark ".", .word property]
  | .function function => function.signs
  | .object properties => bodySigns (separated (propertySigns properties))
  | .assignment target value =>
    targetSigns target ++
      .mark "=" :: enclosed (value.precedence < assignmentPrecedence) value.signs

def argumentSigns : List Expression → List (List Sign)
  | [] => []
  | first :: rest =>
    enclosed (first.precedence < assignmentPrecedence + 1) first.signs :: argumentSigns rest

def Function.signs : Function → List Sign
  | .make name parameters body =>
    .word "function" :: (name.toList.map .word ++
      .mark "(" :: (separated (parameters.map fun parameter => [.word parameter]) ++
        .mark ")" :: bodySigns (statementSigns body)))

def propertySigns : List Property → List (List Sign)
  | [] => []
  | .value key value :: rest =>
    (.word key :: .mark ":" ::
      enclosed (value.precedence < assignmentPrecedence + 1) value.signs) :: propertySigns rest
  | .getter key value :: rest =>
    (.word "get" :: .word key :: .mark "(" :: .mark ")" ::
      bodySigns (.returning :: (value.signs ++ [.mark ";"]))) :: propertySigns rest

def Statement.signs : Statement → List Sign
  | .variable kind name initial =>
    .word kind.keyword :: .word name :: .mark "=" ::
      (enclosed (initial.precedence < assignmentPrecedence) initial.signs ++ [.mark ";"])
  | .function function => function.signs
  | .returnNothing => [.word "return", .mark ";"]
  | .returnValue value => .returning :: (value.signs ++ [.mark ";"])
  | .conditional condition thenBody elseBody =>
    .word "if" :: .mark "(" :: (condition.signs ++
      .mark ")" :: (bodySigns (statementSigns thenBody) ++ elseSigns elseBody))
  | .loop condition body =>
    .word "while" :: .mark "(" :: (condition.signs ++
      .mark ")" :: bodySigns (statementSigns body))
  | .block body => bodySigns (statementSigns body)
  | .expression expression =>
    enclosed expression.startsAmbiguously expression.signs ++ [.mark ";"]

def elseSigns : Option (List Statement) → List Sign
  | none => []
  | some [only] => .word "else" :: (if only.isConditional then only.signs else bodySigns only.signs)
  | some body => .word "else" :: bodySigns (statementSigns body)

def statementSigns : List Statement → List Sign
  | [] => []
  | first :: rest => first.signs ++ statementSigns rest

end

def Starts (pieces : List Piece) (signs : List Sign) : Prop :=
  ∃ text tail first others,
    pieces = .text text :: tail ∧ text.toList = first :: others ∧ firstOf signs = some first ∧
      Leading first ∧ isBlank first = false

theorem Starts.firstCharacter? (starts : Starts pieces signs) (rest : List Piece) :
    ∃ first,
      Script.firstCharacter? (pieces ++ rest) = some first ∧ firstOf signs = some first ∧
        Leading first := by
  obtain ⟨text, tail, first, others, rfl, spelled, isFirst, leading, _⟩ := starts
  exact ⟨first, by rw [List.cons_append, Script.firstCharacter?, spelled], isFirst, leading⟩

theorem Starts.append (starts : Starts pieces signs) (rest : List Piece) (later : List Sign) :
    Starts (pieces ++ rest) (signs ++ later) := by
  obtain ⟨text, tail, first, others, rfl, spelled, isFirst, leading⟩ := starts
  refine ⟨text, tail ++ rest, first, others, rfl, spelled, ?_, leading⟩
  cases signs with
  | nil => cases isFirst
  | cons sign signs => exact isFirst

theorem Starts.parenthesised (starts : Starts pieces signs) (needed : Bool) :
    Starts (parenthesised needed pieces) (enclosed needed signs) := by
  cases needed with
  | false => exact starts
  | true => exact ⟨"(", _, '(', [], rfl, rfl, rfl, by simp [Leading], by decide⟩

theorem starts_sign {text : String} {first : Char} {others : List Char} {sign : Sign}
    (spelled : text.toList = first :: others) (isFirst : sign.text.toList.head? = some first)
    (leading : Leading first) (notBlank : isBlank first = false) :
    Starts (.text text :: tail) (sign :: later) :=
  ⟨text, tail, first, others, rfl, spelled, isFirst, leading, notBlank⟩

theorem starts_fixed {text : String} {sign : Sign}
    (isFirst : sign.text.toList.head? = text.toList.head?)
    (leading :
      (text.toList.head?.any fun first => !isBlank first && !"=<>*/&|+".toList.contains first) =
        true) : Starts (.text text :: tail) (sign :: later) := by
  cases spelled : text.toList with
  | nil => simp [spelled] at leading
  | cons first others =>
    simp only [spelled, List.head?_cons, Option.any_some, Bool.and_eq_true,
      Bool.not_eq_true'] at leading
    refine starts_sign spelled (by rw [isFirst, spelled]; rfl) (fun member => ?_) leading.1
    rw [List.contains_iff_mem.mpr member] at leading
    exact Bool.noConfusion leading.2

theorem starts_name {name : String} (isName : alphabet.IsName name) (tail : List Piece) :
    Starts (.text name :: tail) (.word name :: later) := by
  obtain ⟨first, others, spelled, isStart⟩ := isName.start
  refine starts_sign spelled (by rw [Sign.word, spelled]; rfl) (fun member => ?_)
    (alphabet.not_isBlank_of_isPart first (alphabet.isPart_of_isStart first isStart))
  exact alphabet.not_mem_of_isStart isStart (List.mem_append_left ['-', '.'] member)

theorem exists_first_size {value : Double} (isNumber : value.isNaN = false) :
    ∃ first others,
      (sizeSign value).text.toList = first :: others ∧ Leading first ∧ first ≠ '-' ∧
        isBlank first = false := by
  unfold sizeSign
  split
  · exact ⟨'I', "nfinity".toList, by decide, by simp [Leading], by decide, by decide⟩
  · rename_i isFinite
    have isNumeral := isNumeral_sizeText isNumber ((Bool.not_eq_true _).mp isFinite)
    obtain ⟨first, digits, spelled, isDigit⟩ := isNumeral.exists_cons
    have others : ∀ other ∈ "=<>*/&|+-".toList, (!Decimal.isDigit other) = true :=
      List.all_eq_true.mp (by decide)
    refine ⟨first, digits, spelled, fun member => ?_, fun isMinus => ?_,
      (Alphabet.ascii.not_isStart_of_isDigit isDigit).2.1⟩
    · simpa [isDigit] using others first (List.mem_append_left ['-'] member)
    · simpa [isDigit] using others first (isMinus ▸ by decide)

theorem numberText_eq {value : Double} (isNumber : value.isNaN = false) :
    numberText value =
      if value.isNegative then "-" ++ (sizeSign value).text else (sizeSign value).text := by
  have same : (sizeSign value).text =
      if value.isInfinite then "Infinity" else value.sizeText := by
    unfold sizeSign
    split <;> rfl
  simp [numberText, isNumber, same]

theorem starts_number (value : Double) : Starts [.text (numberText value)] (numberSigns value) := by
  cases isNumber : value.isNaN with
  | true =>
    simp only [numberText, numberSigns, isNumber, if_true]
    exact starts_fixed rfl (by decide)
  | false =>
    obtain ⟨first, others, spelled, leading, _, notBlank⟩ := exists_first_size isNumber
    rw [numberText_eq isNumber]
    simp only [numberSigns, isNumber]
    split
    · exact ⟨_, [], '-', _, rfl, String.toList_append, rfl, by simp [Leading], by decide⟩
    · exact starts_sign spelled (by rw [spelled]; rfl) leading notBlank

theorem Expression.starts (depth : Nat) : (expression : Expression) → expression.Named alphabet →
    Starts (expression.pieces depth) expression.signs
  | .number value, _ => starts_number value
  | .string value, _ =>
    ⟨quote value, [], '"', value.toList.flatMap quotedCharacter ++ ['"'], rfl, by simp [quote],
      by simp [Expression.signs, firstOf, Sign.quoted, quote], by simp [Leading], by decide⟩
  | .boolean true, _ => starts_fixed rfl (by decide)
  | .boolean false, _ => starts_fixed rfl (by decide)
  | .undefined, _ => starts_fixed rfl (by decide)
  | .identifier _, named => starts_name named []
  | .binary _ left _, named => by
      simp only [Expression.pieces, Expression.signs, binaryPieces, List.append_assoc]
      exact ((left.starts depth named.1).parenthesised _).append _ _
  | .unary .negate _, _ => starts_fixed rfl (by decide)
  | .unary .not _, _ => starts_fixed rfl (by decide)
  | .call callee _, named => by
      simp only [Expression.pieces, Expression.signs, List.append_assoc]
      exact ((callee.starts depth named.1).parenthesised _).append _ _
  | .member subject _, named => ((subject.starts depth named.1).parenthesised _).append _ _
  | .function (.make _ _ _), _ => starts_fixed rfl (by decide)
  | .object [], _ => starts_fixed rfl (by decide)
  | .object (.value _ _ :: _), _ => starts_fixed rfl (by decide)
  | .object (.getter _ _ :: _), _ => starts_fixed rfl (by decide)
  | .assignment target value, ⟨isTarget, _⟩ => by
      by_cases isExports : target = "module.exports"
      · subst isExports
        exact starts_fixed rfl (by decide)
      · simp only [Expression.pieces, Expression.signs, targetSigns, isExports, if_false]
        exact starts_name (isTarget.resolve_right isExports) _

structure Clear (alphabet : Alphabet) (expression : Expression) (follower : Option Char) :
    Prop where
  ends : alphabet.Ends follower.toList
  point : expression.isNumber = true ∨ expression.precedence < 17 → follower ≠ some '.'

def Separates (alphabet : Alphabet) (follower : Option Char) : Prop :=
  ∀ expression, Clear alphabet expression follower

def Fits (alphabet : Alphabet) (suits : Option Char → Prop) (pieces : List Piece)
    (signs : List Sign) : Prop :=
  ∀ rest later,
    suits (firstCharacter? rest) →
    Text alphabet rest later →
    Text alphabet (pieces ++ rest) (signs ++ later)

def Whole (alphabet : Alphabet) (expression : Expression) : List Piece → List Sign → Prop :=
  Fits alphabet (Clear alphabet expression)

def Closed (alphabet : Alphabet) : List Piece → List Sign → Prop :=
  Fits alphabet fun _ => True

variable {expression : Expression} {parts : List (List Piece)} {rows : List (List Sign)}
variable {character : Char}

def separators : List Char :=
  " ,;:()\x7b\x7d=|&!<>+-*/%".toList

theorem separates (member : separators.contains character) :
    Separates alphabet (some character) := by
  have all : ∀ character ∈ separators, (endsName character && character ≠ '.') = true :=
    List.all_eq_true.mp (by decide)
  have listed := all character (by simpa using member)
  simp only [Bool.and_eq_true] at listed
  exact fun _ => ⟨Alphabet.ends_cons (alphabet.not_isPart listed.1),
    fun _ => by simpa using listed.2⟩

namespace Text

theorem word {name : String} (isName : alphabet.IsName name)
    (starts : firstCharacter? pieces = some character) (text : Text alphabet pieces signs)
    (member : separators.contains character) :
    Text alphabet (.text name :: pieces) (.word name :: signs) := by
  refine .sign (.word name) (Sign.before_word isName ?_) text
  rw [starts]
  exact (separates member .undefined).ends

theorem keyword {name : String} (starts : firstCharacter? pieces = some character)
    (text : Text alphabet pieces signs) (member : separators.contains character)
    (letters : hasLetters name) :
    Text alphabet (.text name :: pieces) (.word name :: signs) :=
  text.word (isName_of_letters letters) starts member

theorem mark (text : Text alphabet pieces signs) (mark : String)
    (closed : closedMarks.contains mark) :
    Text alphabet (.text mark :: pieces) (.mark mark :: signs) :=
  .sign (.mark mark) (Sign.before_closed mark (by simpa using closed)) text

theorem operator {mark : String} {gap : Piece} (member : mark ∈ operatorMarks)
    (isGap : gap = .thin ∨ gap = .blank)
    (starts : Starts pieces signs) (unsigned : mark = "-" → gap = .thin → firstOf signs ≠ some '-')
    (text : Text alphabet (pieces ++ rest) later) :
    Text alphabet (.text mark :: gap :: (pieces ++ rest)) (.mark mark :: later) := by
  obtain ⟨first, isFirst, isSign, leading⟩ := starts.firstCharacter? rest
  rcases isGap with rfl | rfl
  · refine .sign (.mark mark) (Sign.before_operator member ?_ ?_) text.thin
    · exact fun _ same => Option.some.inj (isFirst.symm.trans same) ▸ leading
    · exact fun isMinus same => unsigned isMinus rfl (isSign.trans (isFirst.symm.trans same))
  · refine .sign (.mark mark) (Sign.before_operator member ?_ (by simp [firstCharacter?]))
      text.blank
    exact fun _ same => Option.some.inj same ▸ by simp [Leading]

theorem returning (starts : Starts pieces signs) (text : Text alphabet (pieces ++ rest) later) :
    Text alphabet (.text "return" :: .blank :: (pieces ++ rest)) (.returning :: later) := by
  obtain ⟨written, tail, first, others, rfl, spelled, _, _, notBlank⟩ := starts
  intro layout
  have isName : alphabet.IsName "return" := isName_of_letters rfl
  have ends : ∀ {characters}, alphabet.Ends (' ' :: characters) :=
    Alphabet.ends_cons (alphabet.not_isPart rfl)
  have sameLine : ∀ {characters},
      Reader.breaksLine (' ' :: (written.toList ++ characters)) = false := by
    simp [spelled, Reader.breaksLine, notBlank, show isBlank ' ' = true by decide,
      show isLineBreak ' ' = false by decide]
  have writes := text.blank layout
  simp only [List.cons_append, toList_readAll_cons, Piece.read, String.reduceToList,
    List.append_assoc] at writes ⊢
  have stands : ∀ {characters},
      Sign.returning.Stands alphabet (' ' :: (written.toList ++ characters)) :=
    ⟨⟨'r', "eturn".toList, by decide, by decide⟩, by decide, next_word isName ends,
      fun _ => sameLine⟩
  exact .more (List.forall_mem_nil _) stands writes

end Text

theorem Whole.fits (whole : Whole alphabet expression pieces signs) :
    Fits alphabet (Separates alphabet) pieces signs :=
  fun rest later separated text => whole rest later (separated expression) text

theorem Fits.parenthesised (fits : Fits alphabet suits pieces signs)
    (suitable : ∀ follower, Separates alphabet follower → suits follower) (needed : Bool) :
    Fits alphabet (fun follower => needed = false → suits follower)
      (parenthesised needed pieces) (enclosed needed signs) := by
  intro rest later suits text
  cases needed with
  | false => exact fits rest later (suits rfl) text
  | true =>
    have inner := fits _ _ (suitable _ (separates rfl)) (text.mark ")" rfl)
    simpa [Script.parenthesised, enclosed] using inner.mark "(" rfl

theorem Whole.parenthesised (whole : Whole alphabet expression pieces signs) (needed : Bool) :
    Fits alphabet (fun follower => needed = false → Clear alphabet expression follower)
      (parenthesised needed pieces) (enclosed needed signs) :=
  Fits.parenthesised whole (fun _ separated => separated expression) needed

theorem Whole.operand (whole : Whole alphabet expression pieces signs) (needed : Bool) :
    Fits alphabet (Separates alphabet) (Script.parenthesised needed pieces)
      (enclosed needed signs) :=
  fun rest later separated text =>
    whole.parenthesised needed rest later (fun _ => separated expression) text

theorem fits_commaSeparated
    (fits : List.Forall₂ (Fits alphabet (Separates alphabet)) parts rows) :
    Fits alphabet (Separates alphabet) (commaSeparated parts) (separated rows) := by
  induction fits with
  | nil => exact fun rest later _ text => text
  | @cons part row parts rows here there ih =>
    cases there with
    | nil => exact here
    | cons next others =>
      intro rest later suits text
      simp only [commaSeparated, separated, List.append_assoc]
      exact here _ _ (separates rfl) ((ih rest later suits text).thin.mark "," rfl)

theorem closed_onLines
    (closed :
      List.Forall₂ (Closed alphabet) (statementPieces depth statements)
        (statements.map Statement.signs)) :
    Closed alphabet (onLines depth (statementPieces depth statements))
      (statementSigns statements) := by
  induction statements with
  | nil => exact fun rest later _ text => text
  | cons first others ih =>
    obtain ⟨here, there⟩ := List.forall₂_cons.mp closed
    cases others with
    | nil => simpa [statementPieces, onLines, statementSigns] using here
    | cons second others =>
      intro rest later _ text
      simp only [statementPieces, onLines, statementSigns, List.append_assoc]
      have lines := (ih there rest later trivial text).line depth
      simp only [statementSigns, List.append_assoc] at lines
      exact here _ _ trivial lines

theorem Text.braces (text : Text alphabet rest later) :
    Text alphabet (.text "\x7b\x7d" :: rest) (.mark "\x7b" :: .mark "\x7d" :: later) :=
  .join "\x7b" "\x7d" ((text.mark "\x7d" rfl).mark "\x7b" rfl)

theorem firstCharacter?_braced :
    firstCharacter? (.thin :: (braced depth parts ++ rest)) = some '\x7b' := by
  unfold braced
  split <;> rfl

theorem closed_braced
    (closed :
      List.Forall₂ (Closed alphabet) (statementPieces (depth + 1) statements)
        (statements.map Statement.signs)) :
    Closed alphabet (braced depth (statementPieces (depth + 1) statements))
      (bodySigns (statementSigns statements)) := by
  intro rest later _ text
  cases statements with
  | nil => exact text.braces
  | cons first others =>
    have lines := closed_onLines closed _ _ trivial ((text.mark "\x7d" rfl).line depth)
    simpa [braced, bodySigns, statementPieces] using (lines.line (depth + 1)).mark "\x7b" rfl

theorem text_entries {first : List Piece} {row : List Sign}
    (here : Fits alphabet (Separates alphabet) first row)
    (there : List.Forall₂ (Fits alphabet (Separates alphabet)) parts rows)
    (text : Text alphabet rest later) :
    Text alphabet
      (first ++ (parts.flatMap (fun entry => [.text ",", .line (depth + 1)] ++ entry) ++
        .line depth :: .text "\x7d" :: rest))
      (separated (row :: rows) ++ .mark "\x7d" :: later) := by
  induction there generalizing first row with
  | nil => exact here _ _ (separates rfl) ((text.mark "\x7d" rfl).line depth)
  | cons next _ ih =>
    simp only [List.flatMap_cons, List.append_assoc, separated]
    exact here _ _ (separates rfl) (((ih next).line _).mark "," rfl)

theorem closed_bracedEntries
    (fits : List.Forall₂ (Fits alphabet (Separates alphabet)) parts rows) :
    Closed alphabet (bracedEntries depth parts) (bodySigns (separated rows)) := by
  intro rest later _ text
  cases fits with
  | nil => exact text.braces
  | cons here there =>
    simp only [bracedEntries, bodySigns, List.append_assoc, List.cons_append]
    exact ((text_entries here there text).line _).mark "\x7b" rfl

theorem text_number (value : Double) (ends : alphabet.Ends (firstCharacter? rest).toList)
    (noPoint : firstCharacter? rest ≠ some '.') (text : Text alphabet rest later) :
    Text alphabet (.text (numberText value) :: rest) (numberSigns value ++ later) := by
  cases isNumber : value.isNaN with
  | true =>
    simp only [numberText, numberSigns, isNumber]
    have isName : alphabet.IsName "NaN" := isName_of_letters rfl
    exact .sign (.word "NaN") (Sign.before_word isName ends) text
  | false =>
    have size : (sizeSign value).Before alphabet (firstCharacter? rest) := by
      unfold sizeSign
      split
      · exact Sign.before_word (isName_of_letters rfl) ends
      · rename_i isFinite
        exact Sign.before_numeral isNumber ((Bool.not_eq_true _).mp isFinite) ends noPoint
    obtain ⟨first, others, spelled, leading, notMinus, _⟩ := exists_first_size isNumber
    have starts : firstCharacter? (.text (sizeSign value).text :: rest) = some first := by
      rw [firstCharacter?, spelled]
    rw [numberText_eq isNumber]
    simp only [numberSigns, isNumber]
    split
    · refine .join _ _ (.sign (.mark "-") (Sign.before_operator (by decide) ?_ fun _ => ?_)
        (.sign _ size text))
      · rw [starts]
        exact fun _ same => Option.some.inj same ▸ leading
      · rw [starts]
        simpa using notMinus
    · exact .sign _ size text

theorem text_unary {operator : UnaryOp} (starts : Starts pieces signs)
    (fits : Fits alphabet suits pieces signs)
    (suitable : ∀ follower, Separates alphabet follower → suits follower)
    (suited : suits (firstCharacter? rest)) (text : Text alphabet rest later) :
    Text alphabet (unaryPieces operator pieces ++ rest) (unarySigns operator signs ++ later) := by
  obtain ⟨first, isFirst, isSign, _⟩ := starts.firstCharacter? []
  have same : firstCharacter? pieces = firstOf signs := by simpa [isSign] using isFirst
  rw [unaryPieces, unarySigns, same]
  generalize hasNeeded : (operator = .negate && firstOf signs = some '-' : Bool) = needed
  have member : operator.symbol ∈ operatorMarks := by cases operator <;> decide
  obtain ⟨first, isFirst, isSign, leading⟩ := (starts.parenthesised needed).firstCharacter? rest
  refine .sign (.mark _) (Sign.before_operator member (fun character same => ?_)
    fun isMinus same => ?_) (fits.parenthesised suitable needed rest later (fun _ => suited) text)
  · obtain rfl := Option.some.inj (isFirst.symm.trans same)
    exact leading
  · obtain rfl := Option.some.inj (isFirst.symm.trans same)
    have isNegate : operator = .negate := by revert isMinus; cases operator <;> decide
    cases needed with
    | false => simp_all [enclosed]
    | true => cases isSign

theorem text_target {target : String}
    (isTarget : alphabet.IsName target ∨ target = "module.exports")
    (starts : firstCharacter? rest = some character) (member : separators.contains character)
    (text : Text alphabet rest later) :
    Text alphabet (.text target :: rest) (targetSigns target ++ later) := by
  unfold targetSigns
  split
  · rename_i isExports
    have path : target = "module" ++ ("." ++ "exports") := by rw [isExports]; decide
    have point : (Sign.mark ".").Before alphabet (some 'e') := by
      refine Sign.before_point fun first same => ?_
      obtain rfl := Option.some.inj same
      rw [alphabet.ascii_isStart _ (by decide)]
      decide
    have isModule : alphabet.IsName "module" := isName_of_letters rfl
    have tail : Text alphabet (.text ("." ++ "exports") :: rest)
        (.mark "." :: .word "exports" :: later) :=
      .join "." "exports" (.sign (.mark ".") point
        (text.keyword starts member rfl))
    rw [path]
    refine .join _ _ (.sign (.word "module") (Sign.before_word isModule ?_) tail)
    exact Alphabet.ends_cons (alphabet.not_isPart rfl)
  · rename_i notExports
    exact text.word (isTarget.resolve_right notExports) starts member

theorem closed_function {name : Option String} {parameters : List String} {body : List Statement}
    (isName : ∀ given ∈ name, alphabet.IsName given)
    (areNames : ∀ parameter ∈ parameters, alphabet.IsName parameter)
    (closed :
      List.Forall₂ (Closed alphabet) (statementPieces (depth + 1) body)
        (body.map Statement.signs)) :
    Closed alphabet (Function.pieces depth (.make name parameters body))
      (Function.signs (.make name parameters body)) := by
  have rows : List.Forall₂ (Fits alphabet (Separates alphabet))
      (parameters.map fun parameter => [.text parameter])
      (parameters.map fun parameter => [.word parameter]) := by
    rw [List.forall₂_map_left_iff, List.forall₂_map_right_iff, List.forall₂_same]
    intro parameter member rest later separated text
    exact text.sign (.word parameter)
      (Sign.before_word (areNames parameter member) (separated .undefined).ends)
  intro rest later _ text
  have tail := (fits_commaSeparated rows _ _ (separates rfl)
    ((closed_braced closed rest later trivial text).thin.mark ")" rfl)).mark "(" rfl
  simp only [Function.pieces, Function.signs, List.append_assoc, List.cons_append]
  cases name with
  | none => exact tail.keyword rfl rfl rfl
  | some given =>
    exact (tail.word (isName given rfl) rfl rfl).blank.keyword rfl rfl rfl

theorem closed_elsePieces {elseBody : Option (List Statement)}
    (closed :
      ∀ body ∈ elseBody, ∀ depth,
        List.Forall₂ (Closed alphabet) (statementPieces depth body) (body.map Statement.signs)) :
    Closed alphabet (elsePieces depth elseBody) (elseSigns elseBody) := by
  intro rest later _ text
  fun_cases elsePieces depth elseBody with
  | case1 => exact text
  | case2 only isConditional =>
    have rows := closed [only] rfl depth
    simp only [statementPieces, List.map_cons, List.forall₂_cons] at rows
    have branch := (rows.1 rest later trivial text).blank
    simp only [elseSigns, isConditional]
    exact (branch.keyword rfl rfl rfl).thin
  | case3 only notConditional =>
    have body := closed_braced (closed _ rfl (depth + 1)) rest later trivial text
    simp only [statementSigns, List.append_nil] at body
    simp only [elseSigns, notConditional]
    exact (body.thin.keyword firstCharacter?_braced rfl rfl).thin
  | case4 body several =>
    have signs : elseSigns (some body) = .word "else" :: bodySigns (statementSigns body) := by
      match body, several with
      | [], _ => rfl
      | _ :: _ :: _, _ => rfl
      | [only], several => exact absurd rfl (several only)
    rw [signs]
    have body := closed_braced (closed _ rfl (depth + 1)) rest later trivial text
    exact (body.thin.keyword firstCharacter?_braced rfl rfl).thin

theorem closed_return (starts : Starts pieces signs)
    (whole : Whole alphabet expression pieces signs) :
    Closed alphabet ([.text "return", .blank] ++ pieces ++ [.text ";"])
      (.returning :: (signs ++ [.mark ";"])) := by
  intro rest later _ text
  simp only [List.append_assoc, List.cons_append, List.nil_append]
  exact .returning starts (whole.fits _ _ (separates rfl) (text.mark ";" rfl))

theorem Clear.of_loose {other : Expression} {follower : Option Char}
    (loose : expression.precedence < 17) (clear : Clear alphabet expression follower) :
    Clear alphabet other follower :=
  ⟨clear.ends, fun _ => clear.point (.inr loose)⟩

mutual

theorem Expression.whole : (expression : Expression) → expression.Named alphabet → ∀ depth,
    Whole alphabet expression (expression.pieces depth) expression.signs
  | .number value, _, _ => fun _ _ clear text =>
    text_number value clear.ends (clear.point (.inl rfl)) text
  | .string value, _, _ => fun _ _ _ text => text.sign (.quoted value) (Sign.before_quoted value)
  | .boolean true, _, _ => fun _ _ clear text =>
    text.sign (.word "true")
      (Sign.before_word (isName_of_letters rfl) clear.ends)
  | .boolean false, _, _ => fun _ _ clear text =>
    text.sign (.word "false")
      (Sign.before_word (isName_of_letters rfl) clear.ends)
  | .undefined, _, _ => fun _ _ clear text =>
    text.sign (.word "undefined")
      (Sign.before_word (isName_of_letters rfl) clear.ends)
  | .identifier name, named, _ => fun _ _ clear text =>
    text.sign (.word name) (Sign.before_word named clear.ends)
  | .binary operator left right, named, depth => by
      intro rest later clear text
      have loose : (Expression.binary operator left right).precedence < 17 := by
        cases operator <;> simp [Expression.precedence, operatorPrecedence]
      have member : operatorText operator ∈ operatorMarks := by cases operator <;> decide
      have startsRight := (right.starts depth named.2).parenthesised
        (right.precedence < operatorPrecedence operator + 1)
      have rightText := (right.whole named.2 depth).parenthesised
        (right.precedence < operatorPrecedence operator + 1) rest later
        (fun _ => clear.of_loose loose) text
      simp only [Expression.pieces, Expression.signs, binaryPieces, List.append_assoc,
        List.cons_append, List.nil_append]
      refine (left.whole named.1 depth).operand _ _ _ ?_
        (.thin (.operator member ?_ startsRight ?_ rightText))
      · cases operator <;> exact separates rfl
      · split <;> simp
      · intro isMinus isThin isSign
        obtain ⟨first, isFirst, same, _⟩ := startsRight.firstCharacter? []
        have isSubtract : operator = .subtract := by revert isMinus; cases operator <;> decide
        subst isSubtract
        rw [List.append_nil, ← same, isSign] at isFirst
        rw [startsWithSign, isFirst] at isThin
        exact absurd isThin (by decide)
  | .unary operator operand, named, depth => by
      intro rest later clear text
      refine text_unary ((operand.starts depth named).parenthesised _)
        ((operand.whole named depth).parenthesised _)
        (fun _ separated _ => separated operand) ?_ text
      exact fun _ => clear.of_loose (by simp [Expression.precedence])
  | .call callee arguments, named, depth => by
      intro rest later _ text
      simp only [Expression.pieces, Expression.signs, List.append_assoc, List.cons_append]
      refine (callee.whole named.1 depth).operand _ _ _ (separates rfl)
        (.mark ?_ "(" rfl)
      exact fits_commaSeparated (arguments_fit arguments named.2 depth) _ _ (separates rfl)
        (text.mark ")" rfl)
  | .member object property, named, depth => by
      intro rest later clear text
      have isPoint : alphabet.isPart '.' = false := alphabet.not_isPart rfl
      obtain ⟨start, others, spelled, isStart⟩ := named.2.start
      have starts : ∀ first ∈ firstCharacter? (.text property :: rest),
          alphabet.isStart first = true := by
        rw [firstCharacter?, spelled]
        exact fun _ isFirst => Option.some.inj isFirst ▸ isStart
      simp only [Expression.pieces, Expression.signs, List.append_assoc]
      refine (object.whole named.1 depth).parenthesised _ _ _ (fun unneeded => ?_)
        (.sign (.mark ".") (Sign.before_point starts)
          (.sign (.word property) (Sign.before_word named.2 clear.ends) text))
      simp only [Bool.or_eq_false_iff, decide_eq_false_iff_not] at unneeded
      refine ⟨Alphabet.ends_cons isPoint, fun isLoose => ?_⟩
      simp [unneeded.1, unneeded.2] at isLoose
  | .function (.make _ _ body), named, depth => fun rest later _ text =>
    closed_function named.1 named.2.1 (statements_closed body named.2.2 (depth + 1)) rest later
      trivial text
  | .object properties, named, depth => fun rest later _ text =>
    closed_bracedEntries (properties_fit properties named (depth + 1)) rest later trivial text
  | .assignment target value, named, depth => by
      intro rest later clear text
      have starts :=
        (value.starts depth named.2).parenthesised (value.precedence < assignmentPrecedence)
      have valueText := (value.whole named.2 depth).parenthesised
        (value.precedence < assignmentPrecedence) rest later
        (fun _ => clear.of_loose (by simp [Expression.precedence])) text
      simp only [Expression.signs, List.append_assoc]
      have sign : Text alphabet (.thin :: .text "=" :: .thin :: _) (.mark "=" :: _) :=
        .thin (.operator (by decide) (.inl rfl) starts (by simp) valueText)
      exact text_target named.1 rfl (by decide) sign

theorem arguments_fit : (arguments : List Expression) → NamedArguments alphabet arguments → ∀ depth,
    List.Forall₂ (Fits alphabet (Separates alphabet)) (argumentPieces depth arguments)
      (argumentSigns arguments)
  | [], _, _ => .nil
  | first :: rest, named, depth =>
    .cons ((first.whole named.1 depth).operand _) (arguments_fit rest named.2 depth)

theorem properties_fit : (properties : List Property) → NamedProperties alphabet properties →
    ∀ depth,
      List.Forall₂ (Fits alphabet (Separates alphabet)) (propertyPieces depth properties)
        (propertySigns properties)
  | [], _, _ => .nil
  | .value key value :: others, named, depth => by
      refine .cons ?_ (properties_fit others named.2.2 depth)
      intro rest later separated text
      have valueText := (value.whole named.2.1 depth).operand
        (value.precedence < assignmentPrecedence + 1) rest later separated text
      exact (valueText.thin.mark ":" rfl).word named.1 rfl rfl
  | .getter key value :: others, named, depth => by
      refine .cons ?_ (properties_fit others named.2.2 depth)
      intro rest later _ text
      have returned : Closed alphabet (Statement.pieces (depth + 1) (.returnValue value)) _ :=
        closed_return (value.starts (depth + 1) named.2.1) (value.whole named.2.1 (depth + 1))
      have body : Text alphabet
          (braced depth (statementPieces (depth + 1) [.returnValue value]) ++ rest) _ :=
        closed_braced (.cons returned .nil) rest later trivial text
      have call : Text alphabet (.text "()" :: .thin :: _) (.mark "(" :: .mark ")" :: _) :=
        .join "(" ")" ((body.thin.mark ")" rfl).mark "(" rfl)
      have keyed := (call.word named.1 rfl rfl).blank
      have getter : Text alphabet (.text "get" :: _) (.word "get" :: _) :=
        keyed.keyword rfl rfl rfl
      simpa [statementPieces, Statement.pieces, statementSigns, Statement.signs] using getter

theorem Statement.closed : (statement : Statement) → statement.Named alphabet → ∀ depth,
    Closed alphabet (statement.pieces depth) statement.signs
  | .variable kind name initial, named, depth => by
      intro rest later _ text
      have starts :=
        (initial.starts depth named.2).parenthesised (initial.precedence < assignmentPrecedence)
      have initialText := (initial.whole named.2 depth).operand
        (initial.precedence < assignmentPrecedence) _ _ (separates rfl)
        (text.mark ";" rfl)
      simp only [Statement.pieces, Statement.signs, List.append_assoc, List.cons_append]
      have tail : Text alphabet (.thin :: .text "=" :: .thin :: _) (.mark "=" :: _) :=
        .thin (.operator (by decide) (.inl rfl) starts (by simp) initialText)
      have declared := (tail.word named.1 rfl rfl).blank
      cases kind <;> exact declared.keyword rfl rfl rfl
  | .function (.make _ _ body), named, depth =>
    closed_function named.1 named.2.1 (statements_closed body named.2.2 (depth + 1))
  | .returnNothing, _, _ => fun _ _ _ text =>
    .join "return" ";" ((text.mark ";" rfl).keyword rfl rfl rfl)
  | .returnValue value, named, depth =>
    closed_return (value.starts depth named) (value.whole named depth)
  | .conditional condition thenBody elseBody, named, depth => by
      intro rest later _ text
      have branch : Text alphabet (elsePieces depth elseBody ++ rest) _ :=
        closed_elsePieces (branch_closed elseBody named.2.2) rest later trivial text
      have inside := statements_closed thenBody named.2.1 (depth + 1)
      have body := closed_braced inside _ _ trivial branch
      have tested := (condition.whole named.1 depth).fits _ _ (separates rfl)
        (body.thin.mark ")" rfl)
      simp only [Statement.pieces, Statement.signs, List.append_assoc, List.cons_append]
      exact (tested.mark "(" rfl).thin.keyword rfl rfl rfl
  | .loop condition body, named, depth => by
      intro rest later _ text
      have bodyText := closed_braced (statements_closed body named.2 (depth + 1)) _ _ trivial text
      have tested := (condition.whole named.1 depth).fits _ _ (separates rfl)
        (bodyText.thin.mark ")" rfl)
      simp only [Statement.pieces, Statement.signs, List.append_assoc, List.cons_append]
      exact (tested.mark "(" rfl).thin.keyword rfl rfl rfl
  | .block body, named, depth => closed_braced (statements_closed body named (depth + 1))
  | .expression expression, named, depth => by
      intro rest later _ text
      simp only [Statement.pieces, Statement.signs, List.append_assoc]
      exact (expression.whole named depth).operand _ _ _ (separates rfl)
        (text.mark ";" rfl)

theorem branch_closed : (elseBody : Option (List Statement)) → NamedBranch alphabet elseBody →
    ∀ body ∈ elseBody, ∀ depth,
      List.Forall₂ (Closed alphabet) (statementPieces depth body) (body.map Statement.signs)
  | some body, named, _, rfl => statements_closed body named

theorem statements_closed : (statements : List Statement) → NamedStatements alphabet statements →
    ∀ depth,
      List.Forall₂ (Closed alphabet) (statementPieces depth statements)
        (statements.map Statement.signs)
  | [], _, _ => .nil
  | first :: rest, named, depth =>
    .cons (first.closed named.1 depth) (statements_closed rest named.2 depth)

end

theorem writes_render {program : List Statement} (named : NamedStatements alphabet program)
    (layout : Layout) :
    Writes alphabet (render layout program).toList (statementSigns program) := by
  have text := closed_onLines (statements_closed program named 0) [] [] trivial .nil
  rw [render]
  simpa using text layout

/--
The two layouts of a script are the same program: they have the same lexemes, none
of which is a comment, `++` or `--`.
-/
theorem lexemes_render (alphabet : Alphabet) (program : List Statement)
    (named : NamedStatements alphabet program) :
    ∃ all,
      lexemes alphabet (render .spread program).toList = some all ∧
        lexemes alphabet (render .compact program).toList = some all ∧
        ∀ lexeme ∈ all, lexeme.IsPlain := by
  refine ⟨_, (writes_render named .spread).lexemes, (writes_render named .compact).lexemes, ?_⟩
  intro lexeme member
  obtain ⟨sign, isSign, rfl⟩ := List.mem_map.mp member
  exact (writes_render named .spread).isPlain sign isSign

/-- A script whose compact layout has signs, words and numbers side by side. -/
def crowded : List Statement :=
  [.variable .constant "x" (.binary .subtract (.number ⟨0x3ff0000000000000⟩)
      (.unary .negate (.unary .negate (.number ⟨0xc000000000000000⟩)))),
    .returnValue (.object [.getter "size" (.member (.number ⟨0x4014000000000000⟩) "size"),
      .value "x" (.binary .divide (.identifier "x") (.unary .not (.identifier "x")))]),
    .expression (.assignment "module.exports" (.string "//"))]

theorem lexemes_render_crowded :
    NamedStatements .ascii crowded ∧
      ∃ all,
        lexemes .ascii (render .spread crowded).toList = some all ∧
          lexemes .ascii (render .compact crowded).toList = some all ∧
          ∀ lexeme ∈ all, lexeme.IsPlain := by
  have isX : Alphabet.ascii.IsName "x" := isName_of_letters rfl
  have isSize : Alphabet.ascii.IsName "size" := isName_of_letters rfl
  have named : NamedStatements .ascii crowded := by
    simp [crowded, NamedStatements, Statement.Named, Expression.Named, NamedProperties, isX, isSize]
  exact ⟨named, lexemes_render .ascii crowded named⟩

end Script

end Toolshed
