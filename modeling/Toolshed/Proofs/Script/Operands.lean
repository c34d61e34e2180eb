import Mathlib.Data.List.Infix
import Toolshed.Proofs.Script.Signs

namespace Toolshed

/-!
# Expressions read back

The signs of an expression read back as what its text shows, at every level of
operators that it may stand at.
-/

namespace Script

open Reader

variable {alphabet : Alphabet} {inner : Inner} {signs later last : List Sign}
variable {value result : Expression} {operators : List (String × BinaryOp)}
variable {tighter : List (List (String × BinaryOp))}
variable {groups : List (List (String × BinaryOp))} {operator : BinaryOp}

structure Quiet (signs : List Sign) : Prop where
  point : ahead signs ≠ some (.mark ".")
  call : ahead signs ≠ some (.mark "(")

def Silent (groups : List (List (String × BinaryOp))) (signs : List Sign) : Prop :=
  ∀ group ∈ groups, ∀ found, ahead signs = some (.mark found) → group.lookup found = none

theorem Ready.quiet (ready : Ready signs) : Quiet signs :=
  ⟨ready.ahead_ne (by simp), ready.ahead_ne (by simp)⟩

theorem Ready.silent (ready : Ready signs) : Silent levels signs := by
  obtain ⟨mark, member, isAhead⟩ := ready
  have unknown : ∀ mark ∈ [")", "\x7d", ",", ";"], ∀ group ∈ levels, group.lookup mark = none := by
    decide
  intro group isGroup found isFound
  obtain rfl := Symbol.mark.inj (Option.some.inj (isAhead.symm.trans isFound))
  exact unknown mark member group isGroup

def Continues (alphabet : Alphabet) (inner : Inner) :
    List (List (String × BinaryOp)) → Expression → List Sign → Expression → List Sign → Prop
  | [], value, later, result, last => result = value ∧ last = later
  | operators :: tighter, value, later, result, last =>
    Goes alphabet (operations alphabet operators (level alphabet inner tighter)) value later result
      last

theorem Silent.continues (silent : Silent groups later) :
    Continues alphabet inner groups value later value later := by
  cases groups with
  | nil => exact ⟨rfl, rfl⟩
  | cons operators tighter =>
    refine .succ fun count _ characters writes => ⟨characters, ?_, writes⟩
    have noOperator : operator? alphabet operators characters = none := by
      unfold operator?
      split
      · rename_i found rest isNext
        have isAhead := writes.ahead
        rw [isNext] at isAhead
        rw [silent operators List.mem_cons_self found isAhead.symm]
        rfl
      · rfl
    rw [operations, noOperator]

def ReadsAccess (alphabet : Alphabet) (inner : Inner) (signs : List Sign) (value : Expression) :
    Prop :=
  ∀ later result last,
    Goes alphabet (suffixes alphabet inner) value later result last →
    Reads alphabet (access alphabet inner) (signs ++ later) result last

def ReadsUnary (alphabet : Alphabet) (inner : Inner) (signs : List Sign) (value : Expression) :
    Prop :=
  ∀ later, Quiet later → Reads alphabet (unary alphabet inner) (signs ++ later) value later

def ReadsLevel (alphabet : Alphabet) (inner : Inner) (groups : List (List (String × BinaryOp)))
    (signs : List Sign) (value : Expression) : Prop :=
  ∀ later result last,
    Quiet later →
    Silent groups.tail later →
    Continues alphabet inner groups value later result last →
    Reads alphabet (level alphabet inner groups) (signs ++ later) result last

theorem readsAccess_of_primary
    (reads : ∀ later, Reads alphabet (primary alphabet inner) (signs ++ later) value later) :
    ReadsAccess alphabet inner signs value :=
  fun later _ _ goes => (reads later).step goes.start

theorem ReadsAccess.unary (reads : ReadsAccess alphabet inner signs value)
    (unsigned : ∃ symbol, ahead signs = some symbol ∧ symbol ∉ [.mark "-", .mark "!"]) :
    ReadsUnary alphabet inner signs value := by
  intro later quiet
  obtain ⟨symbol, isAhead, other⟩ := unsigned
  simp only [List.mem_cons, not_or] at other
  refine .congr (fun characters writes => ?_) (reads later value later (.succ fun count _ => ?_))
  · rw [Reader.unary, writes.mark_eq_none (by simpa [ahead_append isAhead] using other.1),
      writes.mark_eq_none (by simpa [ahead_append isAhead] using other.2)]
  · intro characters writes
    exact ⟨characters, by
      rw [suffixes, writes.mark_eq_none quiet.point, writes.mark_eq_none quiet.call], writes⟩

theorem ReadsUnary.level (reads : ReadsUnary alphabet inner signs value) :
    ReadsLevel alphabet inner [] signs value := by
  rintro _ _ _ quiet _ ⟨rfl, rfl⟩
  exact reads _ quiet

theorem ReadsLevel.cons (reads : ReadsLevel alphabet inner tighter signs value)
    (operators : List (String × BinaryOp)) :
    ReadsLevel alphabet inner (operators :: tighter) signs value := by
  intro later result last quiet silent continues
  have operand := reads later value later quiet
    (fun group member => silent group (List.mem_of_mem_tail member)) (Silent.continues silent)
  exact operand.step continues.start

theorem ReadsLevel.of_suffix (reads : ReadsLevel alphabet inner tighter signs value)
    (suffix : tighter <:+ groups) : ReadsLevel alphabet inner groups signs value := by
  induction groups with
  | nil =>
    obtain rfl := List.suffix_nil.mp suffix
    exact reads
  | cons first rest ih =>
    rcases List.suffix_cons_iff.mp suffix with rfl | inside
    · exact reads
    · exact (ih inside).cons first

theorem ReadsLevel.binary {left right : List Sign} {leftValue rightValue : Expression}
    {text : String} (readsLeft : ReadsLevel alphabet inner (operators :: tighter) left leftValue)
    (readsRight : ReadsLevel alphabet inner tighter right rightValue)
    (isOperator : operators.lookup text = some operator)
    (others : ∀ group ∈ tighter, group.lookup text = none) (noSuffix : text ∉ [".", "("]) :
    ReadsLevel alphabet inner (operators :: tighter) (left ++ .mark text :: right)
      (.binary operator leftValue rightValue) := by
  intro later result last quiet silent continues
  simp only [List.mem_cons, not_or] at noSuffix
  rw [List.append_assoc, List.cons_append]
  refine readsLeft _ result last ⟨?_, ?_⟩ ?_ (.succ fun count enough => ?_)
  · simpa [ahead, Sign.mark] using noSuffix.1
  · simpa [ahead, Sign.mark] using noSuffix.2
  · rintro group member _ ⟨⟩
    exact others group member
  · have operand := readsRight later rightValue later quiet
      (fun group member => silent group (List.mem_of_mem_tail member)) (Silent.continues silent)
    rw [List.length_cons, List.length_append] at enough
    intro characters writes
    obtain ⟨rest, isNext, writes, _⟩ := writes.next
    obtain ⟨rest, isRight, writes⟩ := operand rest writes
    obtain ⟨after, isResult, writes⟩ := continues count (by omega) rest writes
    refine ⟨after, ?_, writes⟩
    simp [operations, operator?, isNext, Sign.mark, isOperator, isRight, isResult]

theorem item_of_readsLevel (reads : ReadsLevel alphabet inner levels signs value) :
    Item alphabet (expression alphabet inner) signs value := by
  intro later ready
  have operand := reads later value later ready.quiet
    (fun group member => ready.silent group (List.mem_of_mem_tail member)) ready.silent.continues
  refine operand.step fun characters writes => ⟨characters, ?_, writes⟩
  have noEqual : mark alphabet "=" characters = none :=
    writes.mark_eq_none (ready.ahead_ne (by simp))
  simp only [noEqual]
  rfl

def looseness : List (List (String × BinaryOp)) → Nat
  | ((_, operator) :: _) :: _ => operatorPrecedence operator
  | _ => 14

/-- A symbol that may begin an operand in a place of some precedence. -/
structure Opening (precedence : Nat) (ambiguous : Bool) (symbol : Symbol) : Prop where
  inside : symbol ∉ [.mark ")", .mark "\x7d", .mark ";"]
  unsigned : 17 ≤ precedence → symbol ∉ [.mark "-", .mark "!"]
  plain :
    ambiguous = false →
      symbol ≠ .mark "\x7b" ∧
        ∀ name, symbol = .word name → ("else" :: leading).contains name = false

structure Readable (alphabet : Alphabet) (precedence : Nat) (ambiguous : Bool) (signs : List Sign)
    (value : Expression) : Prop where
  opens : ∃ symbol, ahead signs = some symbol ∧ Opening precedence ambiguous symbol
  access :
    ∀ nesting,
      17 ≤ precedence → signs.length ≤ nesting →
      ReadsAccess alphabet (upTo alphabet nesting) signs value
  level :
    ∀ nesting groups,
      groups <:+ levels → looseness groups ≤ precedence → signs.length ≤ nesting →
      ReadsLevel alphabet (upTo alphabet nesting) groups signs value
  item :
    ∀ nesting,
      signs.length ≤ nesting →
      Item alphabet (expression alphabet (upTo alphabet nesting)) signs value

namespace Readable

variable {precedence nesting : Nat} {ambiguous : Bool}

theorem of_unary (opens : ∃ symbol, ahead signs = some symbol ∧ Opening precedence ambiguous symbol)
    (access :
      ∀ nesting,
        17 ≤ precedence → signs.length ≤ nesting →
        ReadsAccess alphabet (upTo alphabet nesting) signs value)
    (unary :
      ∀ nesting,
        signs.length ≤ nesting → ReadsUnary alphabet (upTo alphabet nesting) signs value) :
    Readable alphabet precedence ambiguous signs value := by
  have level : ∀ nesting groups, signs.length ≤ nesting →
      ReadsLevel alphabet (upTo alphabet nesting) groups signs value :=
    fun nesting _ fits => (unary nesting fits).level.of_suffix List.nil_suffix
  exact ⟨opens, access, fun nesting groups _ _ => level nesting groups,
    fun nesting fits => item_of_readsLevel (level nesting levels fits)⟩

theorem of_access (tight : 17 ≤ precedence)
    (opens : ∃ symbol, ahead signs = some symbol ∧ Opening precedence ambiguous symbol)
    (access :
      ∀ nesting,
        signs.length ≤ nesting → ReadsAccess alphabet (upTo alphabet nesting) signs value) :
    Readable alphabet precedence ambiguous signs value := by
  refine .of_unary opens (fun nesting _ => access nesting) fun nesting fits => ?_
  obtain ⟨symbol, isAhead, opening⟩ := opens
  exact (access nesting fits).unary ⟨symbol, isAhead, opening.unsigned tight⟩

theorem of_primary (tight : 17 ≤ precedence)
    (opens : ∃ symbol, ahead signs = some symbol ∧ Opening precedence ambiguous symbol)
    (reads :
      ∀ nesting,
        signs.length ≤ nesting →
        ∀ later, Reads alphabet (primary alphabet (upTo alphabet nesting)) (signs ++ later) value
          later) : Readable alphabet precedence ambiguous signs value :=
  .of_access tight opens fun nesting fits => readsAccess_of_primary (reads nesting fits)

theorem nested (readable : Readable alphabet precedence ambiguous signs value)
    (fits : signs.length < nesting) :
    Item alphabet (upTo alphabet nesting).expression signs value := by
  cases nesting with
  | zero => exact absurd fits (Nat.not_lt_zero _)
  | succ nesting => exact readable.item nesting (Nat.le_of_lt_succ fits)

theorem enclosed (readable : Readable alphabet precedence ambiguous signs value) (needed : Bool) :
    Readable alphabet (if needed then 20 else precedence) (!needed && ambiguous)
      (enclosed needed signs) value := by
  cases needed with
  | false => exact readable
  | true =>
    refine .of_primary (by simp) ⟨.mark "(", rfl, by simp, by simp, by simp⟩ ?_
    intro nesting fits later
    simp only [Script.enclosed, if_true, List.length_cons, List.length_append] at fits
    have inside := readable.nested (show signs.length < nesting by omega) (.mark ")" :: later)
      (ready_mark (by simp))
    simp only [Script.enclosed, if_true, List.cons_append, List.append_assoc]
    intro characters writes
    obtain ⟨rest, isNext, writes, _⟩ := writes.next
    obtain ⟨rest, isValue, writes⟩ := inside rest writes
    obtain ⟨after, closes, writes⟩ := writes.mark
    exact ⟨after, by simp [primary, isNext, Sign.mark, isValue, closes], writes⟩

theorem mono {precedence' : Nat} {ambiguous' : Bool}
    (readable : Readable alphabet precedence ambiguous signs value)
    (looser : precedence' ≤ precedence) (plain : ambiguous' = false → ambiguous = false) :
    Readable alphabet precedence' ambiguous' signs value := by
  obtain ⟨⟨symbol, isAhead, opening⟩, access, level, item⟩ := readable
  exact ⟨⟨symbol, isAhead, opening.inside, fun tight => opening.unsigned (tight.trans looser),
      fun isPlain => opening.plain (plain isPlain)⟩,
    fun nesting tight => access nesting (tight.trans looser),
    fun nesting groups suffix loose => level nesting groups suffix (loose.trans looser), item⟩

end Readable

theorem readable_identifier {name : String} (isIdentifier : alphabet.IsIdentifier name) :
    Readable alphabet 20 false [.word name] (.identifier name) := by
  have other : ∀ word, keywords.contains word = true → name ≠ word := by
    rintro word isKeyword rfl
    exact Bool.noConfusion (isIdentifier.free.symm.trans isKeyword)
  have notLeading : ("else" :: leading).contains name = false := by
    by_contra isLeading
    have member : name ∈ "else" :: leading :=
      List.contains_iff_mem.mp ((Bool.not_eq_false _).mp isLeading)
    have all : ∀ name ∈ "else" :: leading, keywords.contains name = true := by decide
    exact other name (all name member) rfl
  refine .of_primary (by simp) ⟨.word name, rfl, by simp, by simp, fun _ => ⟨by simp, ?_⟩⟩
    fun nesting _ later => ?_
  · rintro _ ⟨⟩
    exact notLeading
  · refine .symbol (fun characters rest isNext => ?_) .found
    simp only [primary, isNext, Sign.word, other "true" (by decide), other "false" (by decide),
      other "function" (by decide), isIdentifier.free, Bool.false_eq_true, if_false]

theorem readable_boolean (value : Bool) :
    Readable alphabet 20 false [.word (if value then "true" else "false")] (.boolean value) := by
  refine .of_primary (by simp) ⟨_, rfl, by simp [Sign.word], by simp [Sign.word],
    fun _ => ⟨by simp [Sign.word], ?_⟩⟩ fun nesting _ later => ?_
  · rintro _ ⟨⟩
    cases value <;> decide
  · refine .symbol (fun characters rest isNext => ?_) .found
    cases value <;> simp [primary, isNext, Sign.word]

theorem readable_string (value : String) :
    Readable alphabet 20 false [.quoted value] (.string value) :=
  .of_primary (by simp) ⟨.text value, rfl, by simp, by simp, by simp⟩ fun _ _ _ =>
    .symbol (fun _ _ isNext => by simp [primary, isNext, Sign.quoted]) .found

theorem readable_numeral (value : Double) :
    Readable alphabet 20 false [.numeral value] (.number (size value)) :=
  .of_primary (by simp) ⟨.number (size value), rfl, by simp, by simp, by simp⟩ fun _ _ _ =>
    .symbol (fun _ _ isNext => by simp [primary, isNext, Sign.numeral]) .found

def own (operator : BinaryOp) : List (List (String × BinaryOp)) :=
  levels.dropWhile fun group => (group.lookup (operatorText operator)).isNone

theorem own_suffix (suffix : groups <:+ levels)
    (loose : looseness groups ≤ operatorPrecedence operator) : own operator <:+ groups := by
  have all : ∀ groups ∈ levels.tails,
      looseness groups ≤ operatorPrecedence operator → own operator <:+ groups := by
    cases operator <;> decide
  exact all groups ((List.mem_tails _ _).mpr suffix) loose

theorem own_cases (operator : BinaryOp) :
    ∃ group tighter,
      own operator = group :: tighter ∧
        group.lookup (operatorText operator) = some operator ∧
        ∀ level ∈ tighter, level.lookup (operatorText operator) = none := by
  cases operator <;> exact ⟨_, _, rfl, by decide, by decide⟩

theorem looseness_own (operator : BinaryOp) :
    looseness (own operator) = operatorPrecedence operator := by
  cases operator <;> rfl

theorem precedence_mem (expression : Expression) :
    expression.precedence ∈ [2, 3, 4, 8, 9, 11, 12, 14, 17, 20] := by
  fun_cases Expression.precedence expression with
  | case2 operator => cases operator <;> simp [operatorPrecedence]
  | _ => simp

theorem looseness_own_tail_le (operator : BinaryOp) (expression : Expression) :
    looseness (own operator).tail ≤
      if expression.precedence < operatorPrecedence operator + 1 then 20
      else expression.precedence := by
  have all : ∀ precedence ∈ [2, 3, 4, 8, 9, 11, 12, 14, 17, 20],
      looseness (own operator).tail ≤
        if precedence < operatorPrecedence operator + 1 then 20 else precedence := by
    cases operator <;> decide
  exact all _ (precedence_mem expression)

theorem readable_binary {left right : Expression}
    (readableLeft : Readable alphabet left.precedence left.startsAmbiguously left.signs left.shown)
    (readableRight :
      Readable alphabet right.precedence right.startsAmbiguously right.signs right.shown) :
    Readable alphabet (operatorPrecedence operator)
      (Expression.binary operator left right).startsAmbiguously
      (Expression.binary operator left right).signs
      (Expression.binary operator left right).shown := by
  have first := readableLeft.enclosed (left.precedence < operatorPrecedence operator)
  have second := readableRight.enclosed (right.precedence < operatorPrecedence operator + 1)
  have loose : operatorPrecedence operator < 14 := by cases operator <;> decide
  have level : ∀ nesting groups, groups <:+ levels →
      looseness groups ≤ operatorPrecedence operator →
      (Expression.binary operator left right).signs.length ≤ nesting →
      ReadsLevel alphabet (upTo alphabet nesting) groups
        (Expression.binary operator left right).signs
        (Expression.binary operator left right).shown := by
    intro nesting groups suffix isLoose fits
    simp only [Expression.signs, List.length_append, List.length_cons] at fits ⊢
    have isSuffix : own operator <:+ levels := List.dropWhile_suffix _
    have readsLeft := first.level nesting (own operator) isSuffix
      (by rw [looseness_own]; simp only [decide_eq_true_eq]; split <;> omega) (by omega)
    have readsRight := second.level nesting (own operator).tail
      ((List.tail_suffix _).trans isSuffix)
      (by simpa using looseness_own_tail_le operator right) (by omega)
    obtain ⟨group, tighter, isOwn, found, others⟩ := own_cases operator
    refine ReadsLevel.of_suffix ?_ (own_suffix suffix isLoose)
    rw [isOwn] at readsLeft readsRight ⊢
    exact readsLeft.binary readsRight found others (by cases operator <;> decide)
  obtain ⟨symbol, isAhead, opening⟩ := first.opens
  refine ⟨⟨symbol, ahead_append isAhead, opening.inside, by omega, fun isPlain => ?_⟩, by omega,
    level, fun nesting fits => item_of_readsLevel
      (level nesting levels List.suffix_rfl (by cases operator <;> decide) fits)⟩
  refine opening.plain ?_
  simp only [Expression.startsAmbiguously, Bool.and_eq_false_iff,
    decide_eq_false_iff_not] at isPlain
  rcases isPlain with looser | isPlain
  · simp [Nat.lt_of_not_le looser]
  · simp [isPlain]

theorem readable_sign (operator : UnaryOp) {precedence : Nat} {ambiguous : Bool}
    (readable : Readable alphabet precedence ambiguous signs value) (tight : 14 ≤ precedence) :
    Readable alphabet 14 false (.mark operator.symbol :: signs) (.unary operator value) := by
  refine .of_unary ⟨.mark operator.symbol, rfl, ?_, by simp, ?_⟩ (by simp) ?_
  · cases operator <;> decide
  · cases operator <;> simp [UnaryOp.symbol]
  · intro nesting fits later quiet characters writes
    cases nesting with
    | zero => exact absurd fits (Nat.not_succ_le_zero _)
    | succ nesting =>
      have minus : operator = .not → mark alphabet "-" characters = none := fun isNot =>
        writes.mark_eq_none (by rw [isNot]; simp [ahead, Sign.mark, UnaryOp.symbol])
      obtain ⟨rest, isSign, writes⟩ := writes.mark
      obtain ⟨after, isOperand, writes⟩ :=
        readable.level nesting [] List.nil_suffix tight (Nat.le_of_succ_le_succ fits) later value
          later quiet (List.forall_mem_nil _) ⟨rfl, rfl⟩ rest writes
      have operand : (upTo alphabet (nesting + 1)).unary rest = some (value, after) := isOperand
      refine ⟨after, ?_, writes⟩
      cases operator with
      | negate =>
        replace isSign : mark alphabet "-" characters = some rest := isSign
        simp [unary, isSign, operand]
      | not =>
        replace isSign : mark alphabet "!" characters = some rest := isSign
        simp [unary, minus rfl, isSign, operand]

theorem readable_unary {operator : UnaryOp} {operand : Expression}
    (readable :
      Readable alphabet operand.precedence operand.startsAmbiguously operand.signs
        operand.shown) :
    Readable alphabet 14 false (Expression.unary operator operand).signs
      (Expression.unary operator operand).shown := by
  refine readable_sign operator ((readable.enclosed (operand.precedence < 14)).enclosed _) ?_
  simp only [decide_eq_true_eq]
  split
  · omega
  · split <;> omega

theorem readable_number (value : Double) :
    Readable alphabet (Expression.number value).precedence false (numberSigns value)
      (shownNumber value) := by
  have identifier : ∀ {name : String}, name ∈ ["NaN", "Infinity"] →
      Readable alphabet 20 false [.word name] (.identifier name) := by
    intro name member
    have all : ∀ name ∈ ["NaN", "Infinity"],
        hasLetters name ∧ keywords.contains name = false := by
      decide
    obtain ⟨letters, free⟩ := all name member
    exact readable_identifier (isIdentifier_of_letters letters free)
  have size : Readable alphabet 20 false [sizeSign value]
      (if value.isInfinite then .identifier "Infinity" else .number (size value)) := by
    unfold sizeSign
    split
    · exact identifier (by simp)
    · exact readable_numeral value
  simp only [numberSigns, shownNumber, Expression.precedence]
  cases value.isNaN with
  | true => exact (identifier (List.mem_cons_self)).mono (by split <;> omega) fun _ => rfl
  | false =>
    cases value.isNegative with
    | true => simpa [UnaryOp.symbol] using readable_sign .negate size (by omega)
    | false => exact size

end Script

end Toolshed
