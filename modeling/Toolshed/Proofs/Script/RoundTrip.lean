import Toolshed.Proofs.Script.Operands

namespace Toolshed

/-!
# Scripts read back

The text of a script in the spread layout reads back as what the text shows of
the script.
-/

namespace Script

open Reader

variable {alphabet : Alphabet} {nesting : Nat} {signs later : List Sign} {name : String}
variable {body : List Statement} {parameters : List String} {value : Expression} {test : Expression}

def Expression.Readable (alphabet : Alphabet) (expression : Expression) : Prop :=
  Script.Readable alphabet expression.precedence expression.startsAmbiguously expression.signs
    expression.shown

def ReadableRow {α : Type} (alphabet : Alphabet) (item : Inner → Reader α) (close : String)
    (rows : List (List Sign)) (values : List α) : Prop :=
  ∀ nesting,
    (separated rows).length < nesting →
    List.Forall₂ (Entry alphabet (item (upTo alphabet nesting)) close) rows values

def ReadableBody (alphabet : Alphabet) (body : List Statement) : Prop :=
  ∀ nesting,
    (statementSigns body).length < nesting →
    List.Forall₂ (Line alphabet (upTo alphabet nesting)) (body.map Statement.signs)
      (shownStatements body)

section Access

variable {precedence : Nat} {ambiguous : Bool} {subject : Expression}

theorem readable_call (readable : Readable alphabet precedence ambiguous signs subject)
    (tight : 17 ≤ precedence) {rows : List (List Sign)} {arguments : List Expression}
    (row : ReadableRow alphabet Inner.expression ")" rows arguments) :
    Readable alphabet 17 ambiguous (signs ++ .mark "(" :: (separated rows ++ [.mark ")"]))
      (.call subject arguments) := by
  obtain ⟨symbol, isAhead, opening⟩ := readable.opens
  refine .of_access (by simp) ⟨symbol, ahead_append isAhead, opening.inside,
    fun _ => opening.unsigned tight, opening.plain⟩ fun nesting fits later result last goes => ?_
  simp only [List.length_append, List.length_cons] at fits
  simp only [List.append_assoc, List.cons_append]
  refine readable.access nesting tight (by omega) _ result last
    (.succ fun count enough characters writes => ?_)
  have noPoint : mark alphabet "." characters = none :=
    writes.mark_eq_none (by simp [ahead, Sign.mark])
  obtain ⟨rest, opens, writes⟩ := writes.mark
  obtain ⟨rest, areArguments, writes⟩ := reads_list (row nesting (by omega)) (by simp) rest writes
  simp only [List.length_append, List.length_cons] at enough
  obtain ⟨after, isResult, writes⟩ := goes count (by omega) rest writes
  exact ⟨after, by simp [suffixes, noPoint, opens, areArguments, isResult], writes⟩

theorem readable_member (readable : Readable alphabet precedence ambiguous signs subject)
    (tight : 17 ≤ precedence) (property : String) :
    Readable alphabet 17 ambiguous (signs ++ [.mark ".", .word property])
      (.member subject property) := by
  obtain ⟨symbol, isAhead, opening⟩ := readable.opens
  refine .of_access (by simp) ⟨symbol, ahead_append isAhead, opening.inside,
    fun _ => opening.unsigned tight, opening.plain⟩ fun nesting fits later result last goes => ?_
  rw [List.length_append] at fits
  simp only [List.append_assoc, List.cons_append, List.nil_append]
  refine readable.access nesting tight (by omega) _ result last
    (.succ fun count enough characters writes => ?_)
  obtain ⟨rest, isPoint, writes⟩ := writes.mark
  obtain ⟨rest, isName, writes⟩ := Reads.name rest writes
  simp only [List.length_cons] at enough
  obtain ⟨after, isResult, writes⟩ := goes count (by omega) rest writes
  exact ⟨after, by simp [suffixes, isPoint, isName, isResult], writes⟩

end Access

theorem statementSigns_eq (body : List Statement) :
    statementSigns body = (body.map Statement.signs).flatten := by
  induction body with
  | nil => rfl
  | cons first rest ih => rw [statementSigns, ih, List.map_cons, List.flatten_cons]

theorem ReadableBody.reads (readable : ReadableBody alphabet body)
    (fits : (statementSigns body).length < nesting) :
    Reads alphabet (fun rest => block alphabet (upTo alphabet nesting) (rest.length + 1) rest)
      (statementSigns body ++ .mark "\x7d" :: later) (shownStatements body) later := by
  have lines := readable nesting fits
  rw [statementSigns_eq]
  intro characters writes
  have enough := writes.length_le
  rw [List.length_append] at enough
  exact reads_block lines _ (by omega) characters writes

theorem entries_parameters
    (areIdentifiers : ∀ parameter ∈ parameters, alphabet.IsIdentifier parameter) :
    List.Forall₂ (Entry alphabet (identifier alphabet) ")")
      (parameters.map fun parameter => [.word parameter]) parameters := by
  induction parameters with
  | nil => exact .nil
  | cons first rest ih =>
    obtain ⟨here, there⟩ := List.forall_mem_cons.mp areIdentifiers
    exact .cons ⟨⟨.word first, rfl, by simp⟩, fun _ _ => .identifier here⟩ (ih there)

theorem reads_function
    (areIdentifiers : ∀ parameter ∈ parameters, alphabet.IsIdentifier parameter)
    (readable : ReadableBody alphabet body) (fits : (statementSigns body).length < nesting)
    (given : Option String) :
    Reads alphabet (function alphabet (upTo alphabet nesting) given)
      (.mark "(" :: (separated (parameters.map fun parameter => [.word parameter]) ++
        .mark ")" :: (bodySigns (statementSigns body) ++ later)))
      (.make given parameters (shownStatements body)) later := by
  simp only [bodySigns, List.cons_append, List.append_assoc]
  exact .mark (.step (reads_list (entries_parameters areIdentifiers) (by simp))
    (.mark (.step (readable.reads fits) .found)))

attribute [local simp] Expression.precedence Expression.startsAmbiguously Expression.shown

theorem readable_function {given : Option String}
    (isNamed : ∀ name ∈ given, alphabet.IsIdentifier name)
    (areIdentifiers : ∀ parameter ∈ parameters, alphabet.IsIdentifier parameter)
    (readable : ReadableBody alphabet body) :
    (Expression.function (.make given parameters body)).Readable alphabet := by
  refine .of_primary (by simp)
    ⟨.word "function", by rw [Expression.signs]; rfl, by simp, by simp,
      by simp⟩ fun nesting fits later characters writes => ?_
  simp only [Expression.signs, Function.signs, bodySigns, List.length_cons,
    List.length_append] at fits
  simp only [Expression.signs, Function.signs, List.cons_append, List.append_assoc] at writes
  obtain ⟨rest, isNext, writes, _⟩ := writes.next
  have inside : (statementSigns body).length < nesting := by omega
  cases given with
  | none =>
    have nameless : identifier alphabet rest = none := by
      obtain ⟨after, isOpening, _⟩ := writes.next
      simp [identifier, isOpening, Sign.mark]
    obtain ⟨after, isFunction, writes⟩ :=
      reads_function areIdentifiers readable inside none rest writes
    exact ⟨after, by simp [primary, isNext, Sign.word, nameless, isFunction, Function.shown],
      writes⟩
  | some name =>
    obtain ⟨rest', isName, writes⟩ := Reads.identifier (isNamed name rfl) rest writes
    obtain ⟨after, isFunction, writes⟩ :=
      reads_function areIdentifiers readable inside (some name) rest' writes
    exact ⟨after, by simp [primary, isNext, Sign.word, isName, isFunction, Function.shown], writes⟩

theorem readable_object {properties : List Property}
    (row : ReadableRow alphabet (property alphabet) "\x7d" (propertySigns properties)
      (shownProperties properties)) :
    (Expression.object properties).Readable alphabet := by
  refine .of_primary (by simp)
    ⟨.mark "\x7b", by rw [Expression.signs]; rfl, by simp, by simp,
      by simp⟩ fun nesting fits later characters writes => ?_
  simp only [Expression.signs, bodySigns, List.length_cons, List.length_append]
    at fits
  simp only [Expression.signs, bodySigns, List.cons_append, List.append_assoc]
    at writes
  obtain ⟨rest, isNext, writes, _⟩ := writes.next
  obtain ⟨after, areProperties, writes⟩ :=
    reads_list (row nesting (by omega)) (by simp) rest writes
  exact ⟨after, by simp [primary, isNext, Sign.mark, areProperties], writes⟩

theorem entry_value {precedence : Nat} {ambiguous : Bool} (key : String)
    (readable : Readable alphabet precedence ambiguous signs value)
    (fits : signs.length < nesting) :
    Entry alphabet (property alphabet (upTo alphabet nesting)) "\x7d"
      (.word key :: .mark ":" :: signs) (.value key value) := by
  refine ⟨⟨.word key, rfl, by simp⟩, fun later ready characters writes => ?_⟩
  obtain ⟨rest, isKey, writes⟩ := Reads.name characters writes
  obtain ⟨rest, isColon, writes⟩ := writes.mark
  obtain ⟨after, isValue, writes⟩ := readable.nested fits later ready rest writes
  exact ⟨after, by simp [property, isKey, isColon, isValue], writes⟩

attribute [local simp] Statement.shown

theorem entry_getter (key : String) (readable : ReadableBody alphabet [.returnValue value])
    (fits : (Statement.returnValue value).signs.length < nesting) :
    Entry alphabet (property alphabet (upTo alphabet nesting)) "\x7d"
      (.word "get" :: .word key :: .mark "(" :: .mark ")" ::
        bodySigns (Statement.returnValue value).signs) (.getter key value.shown) := by
  refine ⟨⟨.word "get", rfl, by simp⟩, fun later ready characters writes => ?_⟩
  simp only [bodySigns, List.cons_append, List.append_assoc] at writes
  obtain ⟨rest, isGet, writes⟩ := Reads.name characters writes
  have noColon : mark alphabet ":" rest = none := writes.mark_eq_none (by simp [ahead, Sign.word])
  obtain ⟨rest', isKey, writes⟩ := Reads.name rest writes
  obtain ⟨rest1, isOpening, writes⟩ := writes.mark
  obtain ⟨rest2, isClosing, writes⟩ := writes.mark
  obtain ⟨rest3, isBrace, writes⟩ := writes.mark
  have body : Reads alphabet _ _ _ later := readable.reads (by simpa [statementSigns] using fits)
  simp only [statementSigns, List.append_nil] at body
  obtain ⟨after, isBody, writes⟩ := body rest3 writes
  refine ⟨after, ?_, writes⟩
  simp [property, isGet, noColon, isKey, isOpening, isClosing, isBrace, isBody, shownStatements,
    returned?]

theorem readable_target {target : String}
    (isTarget : alphabet.IsIdentifier target ∨ target = "module.exports") :
    ∃ subject, target? subject = some target ∧
      Readable alphabet 17 false (targetSigns target) subject := by
  unfold targetSigns
  split
  · rename_i isExports
    have isModule : alphabet.IsIdentifier "module" :=
      isIdentifier_of_letters rfl rfl
    exact ⟨.member (.identifier "module") "exports", by rw [isExports]; decide,
      readable_member (readable_identifier isModule) (by omega) "exports"⟩
  · rename_i notExports
    exact ⟨.identifier target, rfl,
      (readable_identifier (isTarget.resolve_right notExports)).mono (by omega) fun _ => rfl⟩

theorem readable_assignment {target : String}
    (isTarget : alphabet.IsIdentifier target ∨ target = "module.exports")
    (readable : value.Readable alphabet) :
    (Expression.assignment target value).Readable alphabet := by
  obtain ⟨subject, targets, readableTarget⟩ := readable_target isTarget
  obtain ⟨symbol, isAhead, opening⟩ := readableTarget.opens
  refine ⟨⟨symbol, ahead_append isAhead, opening.inside, by simp,
    fun _ => opening.plain rfl⟩, by simp, ?_, ?_⟩
  · intro nesting groups suffix loose
    have all : ∀ groups ∈ levels.tails, 3 ≤ looseness groups := by decide
    have above := all groups ((List.mem_tails _ _).mpr suffix)
    simp only [Expression.precedence] at loose
    omega
  · intro nesting fits later ready characters writes
    simp only [Expression.signs, List.append_assoc, List.length_append,
      List.length_cons] at fits writes
    have silent : Silent levels (.mark "=" ::
        (enclosed (value.precedence < assignmentPrecedence) value.signs ++ later)) := by
      have unknown : ∀ group ∈ levels, group.lookup "=" = none := by decide
      rintro group member _ ⟨⟩
      exact unknown group member
    obtain ⟨rest, isSubject, writes⟩ :=
      readableTarget.level nesting levels List.suffix_rfl (by decide) (by omega) _ subject _
        ⟨by simp [ahead, Sign.mark], by simp [ahead, Sign.mark]⟩
        (fun group member => silent group (List.mem_of_mem_tail member)) silent.continues characters
        writes
    obtain ⟨rest', isEqual, writes⟩ := writes.mark
    obtain ⟨after, isValue, writes⟩ :=
      (readable.enclosed (value.precedence < assignmentPrecedence)).nested
        (show _ < nesting by omega) later ready
        rest' writes
    exact ⟨after, by simp [expression, isSubject, isEqual, targets, isValue],
      writes⟩

theorem line_of_statement {read : Statement}
    (opens : ∃ symbol, ahead signs = some symbol ∧ symbol ≠ .mark "\x7d" ∧ symbol ≠ .word "else")
    (fits : signs.length < nesting)
    (reads :
      ∀ nesting later,
        signs.length ≤ nesting →
        ahead later ≠ some (.word "else") →
        Reads alphabet (statement alphabet (upTo alphabet nesting)) (signs ++ later) read later) :
    Line alphabet (upTo alphabet nesting) signs read := by
  cases nesting with
  | zero => exact absurd fits (Nat.not_lt_zero _)
  | succ nesting => exact ⟨opens, fun later => reads nesting later (Nat.le_of_lt_succ fits)⟩

theorem line_of_keyword {sign : Sign} {word : String} {read : Statement}
    (isWord : sign.symbol = .word word) (member : word ∈ leading)
    (fits : (sign :: signs).length < nesting)
    (reads :
      ∀ nesting later rest,
        signs.length < nesting →
        ahead later ≠ some (.word "else") →
        Writes alphabet rest (signs ++ later) →
        (sign.joined = true → breaksLine rest = false) →
        ∃ after,
          keyword alphabet (upTo alphabet nesting) word rest = some (read, after) ∧
            Writes alphabet after later) :
    Line alphabet (upTo alphabet nesting) (sign :: signs) read := by
  refine line_of_statement ⟨.word word, congrArg some isWord, by simp, ?_⟩ fits
    fun nesting later fits noElse characters writes => ?_
  · rintro ⟨⟩
    exact absurd member (by decide)
  · obtain ⟨rest, isNext, writes, sameLine⟩ := writes.next
    obtain ⟨after, isRead, writes⟩ := reads nesting later rest fits noElse writes sameLine
    exact ⟨after, by simp [statement, isNext, isWord, member, isRead], writes⟩

attribute [local simp] keyword

theorem line_variable {kind : VariableKind} {initial : Expression}
    (isIdentifier : alphabet.IsIdentifier name) (readable : initial.Readable alphabet)
    (fits : (Statement.variable kind name initial).signs.length < nesting) :
    Line alphabet (upTo alphabet nesting) (Statement.variable kind name initial).signs
      (Statement.variable kind name initial).shown := by
  refine line_of_keyword rfl (by cases kind <;> decide) fits
    fun nesting later rest fits _ writes _ => ?_
  simp only [List.cons_append, List.append_assoc] at writes
  simp only [List.length_cons, List.length_append] at fits
  obtain ⟨rest1, isName, writes⟩ := Reads.identifier isIdentifier rest writes
  obtain ⟨rest2, isEqual, writes⟩ := writes.mark
  obtain ⟨rest3, isInitial, writes⟩ :=
    (readable.enclosed (initial.precedence < assignmentPrecedence)).nested
      (show _ < nesting by omega) _
      (ready_mark (by simp)) rest2 writes
  obtain ⟨after, ends, writes⟩ := writes.mark
  refine ⟨after, ?_, writes⟩
  have others : kind.keyword ≠ "function" ∧ kind.keyword ≠ "return" ∧ kind.keyword ≠ "if" ∧
      kind.keyword ≠ "while" ∧ declaration? kind.keyword = some kind := by
    cases kind <;> decide
  simp [others, isName, isEqual, isInitial, ends]

theorem line_function (isIdentifier : alphabet.IsIdentifier name)
    (areIdentifiers : ∀ parameter ∈ parameters, alphabet.IsIdentifier parameter)
    (readable : ReadableBody alphabet body)
    (fits : (Statement.function (.make (some name) parameters body)).signs.length < nesting) :
    Line alphabet (upTo alphabet nesting)
      (Statement.function (.make (some name) parameters body)).signs
      (Statement.function (.make (some name) parameters body)).shown := by
  refine line_of_keyword rfl (by decide) fits fun nesting later rest fits _ writes _ => ?_
  simp only [List.cons_append, List.append_assoc] at writes
  simp only [bodySigns, List.length_cons, List.length_append] at fits
  obtain ⟨rest', isName, writes⟩ := Reads.identifier isIdentifier rest writes
  obtain ⟨after, isFunction, writes⟩ :=
    reads_function areIdentifiers readable (show _ < nesting by omega) (some name) rest' writes
  exact ⟨after, by simp [isName, isFunction, Function.shown], writes⟩

theorem line_returnNothing (fits : Statement.returnNothing.signs.length < nesting) :
    Line alphabet (upTo alphabet nesting) Statement.returnNothing.signs .returnNothing := by
  refine line_of_keyword rfl (by decide) fits fun nesting later rest _ _ writes _ => ?_
  obtain ⟨after, ends, writes⟩ := writes.mark
  exact ⟨after, by simp [ends], writes⟩

theorem line_returnValue (readable : value.Readable alphabet)
    (fits : (Statement.returnValue value).signs.length < nesting) :
    Line alphabet (upTo alphabet nesting) (Statement.returnValue value).signs
      (Statement.returnValue value).shown := by
  refine line_of_keyword rfl (by decide) fits fun nesting later rest fits _ writes sameLine => ?_
  obtain ⟨symbol, isAhead, opening⟩ := readable.opens
  simp only [List.append_assoc] at writes
  rw [List.length_append] at fits
  have more : mark alphabet ";" rest = none := by
    refine writes.mark_eq_none ?_
    rw [ahead_append isAhead]
    rintro ⟨⟩
    exact opening.inside (by simp)
  obtain ⟨rest', isValue, writes⟩ :=
    readable.nested (show _ < nesting by omega) _ (ready_mark (by simp)) rest writes
  obtain ⟨after, ends, writes⟩ := writes.mark
  exact ⟨after, by simp [more, sameLine rfl, isValue, ends], writes⟩

theorem reads_braces (readable : ReadableBody alphabet body)
    (fits : (bodySigns (statementSigns body)).length ≤ nesting) :
    Reads alphabet (statement alphabet (upTo alphabet nesting))
      (bodySigns (statementSigns body) ++ later) (.block (shownStatements body)) later := by
  intro characters writes
  simp only [bodySigns, List.cons_append, List.append_assoc] at writes
  simp only [bodySigns, List.length_cons, List.length_append] at fits
  obtain ⟨rest, isNext, writes, _⟩ := writes.next
  obtain ⟨after, isBody, writes⟩ := readable.reads (show _ < nesting by omega) rest writes
  exact ⟨after, by simp [statement, isNext, Sign.mark, isBody], writes⟩

theorem reads_branch (readable : ReadableBody alphabet body)
    (fits : (bodySigns (statementSigns body)).length < nesting) :
    Reads alphabet (upTo alphabet nesting).statement (bodySigns (statementSigns body) ++ later)
      (.block (shownStatements body)) later := by
  cases nesting with
  | zero => exact absurd fits (Nat.not_lt_zero _)
  | succ nesting => exact reads_braces readable (Nat.le_of_lt_succ fits)

theorem reads_condition (readable : test.Readable alphabet) (fits : test.signs.length < nesting) :
    Reads alphabet (condition alphabet (upTo alphabet nesting))
      (.mark "(" :: (test.signs ++ .mark ")" :: later)) test.shown later :=
  .mark (.step (readable.nested fits _ (ready_mark (by simp))) (.mark .found))

theorem line_loop (readable : test.Readable alphabet) (readableBody : ReadableBody alphabet body)
    (fits : (Statement.loop test body).signs.length < nesting) :
    Line alphabet (upTo alphabet nesting) (Statement.loop test body).signs
      (Statement.loop test body).shown := by
  refine line_of_keyword rfl (by decide) fits fun nesting later rest fits _ writes _ => ?_
  simp only [List.append_assoc, List.cons_append] at writes
  simp only [List.length_cons, List.length_append] at fits
  obtain ⟨rest', isTest, writes⟩ := reads_condition readable (show _ < nesting by omega) rest writes
  obtain ⟨after, isBody, writes⟩ :=
    reads_branch readableBody (show _ < nesting by omega) rest' writes
  exact ⟨after, by simp [isTest, isBody, branch], writes⟩

theorem reads_else (readable : ReadableBody alphabet body)
    (fits : (elseSigns (some body)).length ≤ nesting) (noElse : ahead later ≠ some (.word "else")) :
    ∃ others read,
      elseSigns (some body) = .word "else" :: others ∧ branch read = shownStatements body ∧
        Reads alphabet (upTo alphabet nesting).statement (others ++ later) read later := by
  have inBraces : elseSigns (some body) = .word "else" :: bodySigns (statementSigns body) →
      ∃ others read,
        elseSigns (some body) = .word "else" :: others ∧ branch read = shownStatements body ∧
          Reads alphabet (upTo alphabet nesting).statement (others ++ later) read later := by
    intro isBraced
    rw [isBraced] at fits
    exact ⟨_, _, isBraced, rfl, reads_branch readable fits⟩
  match body, readable with
  | [], _ => exact inBraces rfl
  | _ :: _ :: _, _ => exact inBraces rfl
  | [only], readable =>
    cases isConditional : only.isConditional with
    | false => exact inBraces (by simp [elseSigns, isConditional, statementSigns])
    | true =>
      have isElse : elseSigns (some [only]) = .word "else" :: only.signs := by
        simp [elseSigns, isConditional]
      have isBranch : branch only.shown = shownStatements [only] := by
        cases only <;> simp_all [Statement.isConditional, shownStatements, branch]
      rw [isElse] at fits
      have lines := readable nesting (by rwa [statementSigns, statementSigns, List.append_nil])
      simp only [List.map_cons, shownStatements, List.forall₂_cons] at lines
      exact ⟨only.signs, only.shown, isElse, isBranch, lines.1.reads later noElse⟩

theorem line_conditional {thenBody : List Statement} {elseBody : Option (List Statement)}
    (readable : test.Readable alphabet) (readableThen : ReadableBody alphabet thenBody)
    (readableElse : ∀ body ∈ elseBody, ReadableBody alphabet body)
    (fits : (Statement.conditional test thenBody elseBody).signs.length < nesting) :
    Line alphabet (upTo alphabet nesting) (Statement.conditional test thenBody elseBody).signs
      (Statement.conditional test thenBody elseBody).shown := by
  refine line_of_keyword rfl (by decide) fits fun nesting later rest fits noElse writes _ => ?_
  simp only [List.append_assoc, List.cons_append] at writes
  simp only [List.length_cons, List.length_append] at fits
  obtain ⟨rest1, isTest, writes⟩ := reads_condition readable (show _ < nesting by omega) rest writes
  obtain ⟨rest2, isThen, writes⟩ :=
    reads_branch readableThen (show _ < nesting by omega) rest1 writes
  cases elseBody with
  | none =>
    have isLast : word alphabet "else" rest2 = none := writes.word_eq_none noElse
    exact ⟨rest2, by simp [isTest, isThen, isLast, branch, shownBranch],
      writes⟩
  | some body =>
    obtain ⟨others, read, isElse, isBranch, reads⟩ :=
      reads_else (readableElse body rfl) (show _ ≤ nesting by omega) noElse
    rw [isElse] at writes
    obtain ⟨rest3, isNext, writes, _⟩ := writes.next
    obtain ⟨after, isRead, writes⟩ := reads rest3 writes
    have isWord : word alphabet "else" rest2 = some rest3 := by simp [word, isNext, Sign.word]
    have isBlock : branch (.block (shownStatements thenBody)) = shownStatements thenBody := rfl
    exact ⟨after, by simp [isTest, isThen, isWord, isRead, isBranch, isBlock, shownBranch], writes⟩

theorem line_expression {expression : Expression} (readable : expression.Readable alphabet)
    (fits : (Statement.expression expression).signs.length < nesting) :
    Line alphabet (upTo alphabet nesting) (Statement.expression expression).signs
      (Statement.expression expression).shown := by
  have inside := readable.enclosed expression.startsAmbiguously
  obtain ⟨symbol, isAhead, opening⟩ := inside.opens
  obtain ⟨notBrace, notLeading⟩ := opening.plain (by simp)
  refine line_of_statement ⟨symbol, ahead_append isAhead, ?_, ?_⟩ fits
    fun nesting later fits _ characters writes => ?_
  · rintro rfl
    exact opening.inside (by simp)
  · rintro rfl
    exact absurd (notLeading "else" rfl) (by decide)
  · simp only [Statement.signs, List.append_assoc, List.length_append,
      List.length_cons] at writes fits
    have isNext := writes.ahead
    rw [ahead_append isAhead, Option.map_eq_some_iff] at isNext
    obtain ⟨⟨_, rest⟩, isNext, rfl⟩ := isNext
    obtain ⟨rest', isExpression, writes⟩ :=
      inside.nested (show _ < nesting by omega) _ (ready_mark (by simp)) characters writes
    obtain ⟨after, ends, writes⟩ := writes.mark
    refine ⟨after, ?_, writes⟩
    have isStatement : expressionStatement alphabet (upTo alphabet nesting) characters =
        some (.expression expression.shown, after) := by
      simp [expressionStatement, isExpression, ends]
    rw [Statement.shown, ← isStatement, statement, isNext]
    split
    · rename_i isWord
      have other := notLeading _ (Prod.mk.inj (Option.some.inj isWord)).1
      simp only [List.contains_cons, Bool.or_eq_false_iff] at other
      simp only [other.2, Bool.false_eq_true, if_false]
    · rename_i isMark
      refine if_neg fun isBrace => notBrace ?_
      rw [(Prod.mk.inj (Option.some.inj isMark)).1, isBrace]
    · rfl

theorem length_separated_cons (row : List Sign) (rows : List (List Sign)) :
    row.length ≤ (separated (row :: rows)).length ∧
      (separated rows).length ≤ (separated (row :: rows)).length := by
  cases rows with
  | nil => simp [separated]
  | cons second others =>
    simp only [separated, List.length_append, List.length_cons]
    omega

mutual

theorem Expression.readable : (expression : Expression) → expression.Spellable alphabet →
    expression.Readable alphabet
  | .number value, _ => readable_number value
  | .string value, _ => readable_string value
  | .boolean value, _ => readable_boolean value
  | .undefined, _ =>
    readable_identifier (isIdentifier_of_letters rfl rfl)
  | .identifier _, spellable => readable_identifier spellable
  | .binary _ left right, spellable =>
    readable_binary (left.readable spellable.1) (right.readable spellable.2)
  | .unary _ operand, spellable => readable_unary (operand.readable spellable)
  | .call callee arguments, spellable => by
      have tight := (callee.readable spellable.1).enclosed (callee.precedence < 17)
      refine (readable_call tight ?_ (arguments_readable arguments spellable.2)).mono
        (Nat.le_refl _) fun isPlain => ?_
      · simp only [decide_eq_true_eq]
        split <;> omega
      · simp only [Expression.startsAmbiguously] at isPlain
        simp [isPlain]
  | .member object property, spellable => by
      have tight := (object.readable spellable.1).enclosed
        (object.isNumber || object.precedence < 17)
      refine (readable_member tight ?_ property).mono (Nat.le_refl _) fun isPlain => ?_
      · simp only [Bool.or_eq_true, decide_eq_true_eq]
        split <;> omega
      · cases object <;> simp_all
  | .function (.make _ _ body), spellable =>
    readable_function spellable.1 spellable.2.1 (statements_readable body spellable.2.2)
  | .object properties, spellable => readable_object (properties_readable properties spellable)
  | .assignment _ value, spellable => readable_assignment spellable.1 (value.readable spellable.2)

theorem arguments_readable : (arguments : List Expression) → SpellableArguments alphabet arguments →
    ReadableRow alphabet Inner.expression ")" (argumentSigns arguments) (shownArguments arguments)
  | [], _, _, _ => .nil
  | first :: rest, spellable, nesting, fits => by
      have readable := (first.readable spellable.1).enclosed
        (first.precedence < assignmentPrecedence + 1)
      obtain ⟨symbol, isAhead, opening⟩ := readable.opens
      have shorter := length_separated_cons
        (enclosed (first.precedence < assignmentPrecedence + 1) first.signs) (argumentSigns rest)
      rw [argumentSigns] at fits
      refine .cons ⟨⟨symbol, isAhead, ?_⟩, readable.nested (by omega)⟩
        (arguments_readable rest spellable.2 nesting (by omega))
      rintro rfl
      exact opening.inside (by simp)

theorem properties_readable :
    (properties : List Property) → SpellableProperties alphabet properties →
    ReadableRow alphabet (property alphabet) "\x7d" (propertySigns properties)
      (shownProperties properties)
  | [], _, _, _ => .nil
  | .value key value :: rest, spellable, nesting, fits => by
      have shorter := length_separated_cons (.word key :: .mark ":" ::
        enclosed (value.precedence < assignmentPrecedence + 1) value.signs) (propertySigns rest)
      simp only [propertySigns, List.length_cons] at fits shorter
      exact .cons (entry_value key ((value.readable spellable.2.1).enclosed _) (by omega))
        (properties_readable rest spellable.2.2 nesting (by omega))
  | .getter key value :: rest, spellable, nesting, fits => by
      have shorter := length_separated_cons (.word "get" :: .word key :: .mark "(" :: .mark ")" ::
        bodySigns (.returning :: (value.signs ++ [.mark ";"]))) (propertySigns rest)
      simp only [propertySigns, bodySigns, List.length_cons, List.length_append] at fits shorter
      have body : ReadableBody alphabet [.returnValue value] := by
        intro nesting fits
        refine .cons (line_returnValue (value.readable spellable.2.1) ?_) .nil
        simpa [statementSigns] using fits
      refine .cons (entry_getter key body ?_)
        (properties_readable rest spellable.2.2 nesting (by omega))
      simp only [Statement.signs, List.length_cons, List.length_append]
      omega

theorem Statement.line : (statement : Statement) → statement.Spellable alphabet →
    ∀ nesting, statement.signs.length < nesting →
      Line alphabet (upTo alphabet nesting) statement.signs statement.shown
  | .variable _ _ initial, spellable, _, fits =>
    line_variable spellable.1 (initial.readable spellable.2) fits
  | .function (.make (some given) _ body), spellable, _, fits =>
    line_function (spellable.2.1 given rfl) spellable.2.2.1
      (statements_readable body spellable.2.2.2) fits
  | .function (.make none _ _), spellable, _, _ => by
      cases spellable.1
  | .returnNothing, _, _, fits => line_returnNothing fits
  | .returnValue value, spellable, _, fits => line_returnValue (value.readable spellable) fits
  | .conditional condition thenBody elseBody, spellable, _, fits =>
    line_conditional (condition.readable spellable.1)
      (statements_readable thenBody spellable.2.1) (branch_readable elseBody spellable.2.2) fits
  | .loop condition body, spellable, _, fits =>
    line_loop (condition.readable spellable.1) (statements_readable body spellable.2) fits
  | .block body, spellable, _, fits =>
    line_of_statement ⟨.mark "\x7b", rfl, by simp, by simp⟩ fits fun _ _ fits _ =>
      reads_braces (statements_readable body spellable) fits
  | .expression expression, spellable, _, fits =>
    line_expression (expression.readable spellable) fits

theorem branch_readable :
    (elseBody : Option (List Statement)) → SpellableBranch alphabet elseBody →
    ∀ body ∈ elseBody, ReadableBody alphabet body
  | some body, spellable, _, rfl => statements_readable body spellable

theorem statements_readable :
    (statements : List Statement) → SpellableStatements alphabet statements →
    ReadableBody alphabet statements
  | [], _, _, _ => .nil
  | first :: rest, spellable, nesting, fits => by
      rw [statementSigns, List.length_append] at fits
      exact .cons (first.line spellable.1 nesting (by omega))
        (statements_readable rest spellable.2 nesting (by omega))

end

mutual

theorem Expression.named : (expression : Expression) → expression.Spellable alphabet →
    expression.Named alphabet
  | .number _, _ | .string _, _ | .boolean _, _ | .undefined, _ => trivial
  | .identifier _, spellable => spellable.toIsName
  | .binary _ left right, spellable => ⟨left.named spellable.1, right.named spellable.2⟩
  | .unary _ operand, spellable => operand.named spellable
  | .call callee arguments, spellable =>
    ⟨callee.named spellable.1, arguments_named arguments spellable.2⟩
  | .member object _, spellable => ⟨object.named spellable.1, spellable.2⟩
  | .function function, spellable => function.named spellable
  | .object properties, spellable => properties_named properties spellable
  | .assignment _ value, spellable =>
    ⟨spellable.1.imp_left fun isIdentifier => isIdentifier.toIsName, value.named spellable.2⟩

theorem arguments_named : (arguments : List Expression) → SpellableArguments alphabet arguments →
    NamedArguments alphabet arguments
  | [], _ => trivial
  | first :: rest, spellable => ⟨first.named spellable.1, arguments_named rest spellable.2⟩

theorem Function.named : (function : Function) → function.Spellable alphabet →
    function.Named alphabet
  | .make _ _ body, spellable =>
    ⟨fun given member => (spellable.1 given member).toIsName,
      fun parameter member => (spellable.2.1 parameter member).toIsName,
      statements_named body spellable.2.2⟩

theorem properties_named :
    (properties : List Property) → SpellableProperties alphabet properties →
    NamedProperties alphabet properties
  | [], _ => trivial
  | .value _ value :: rest, spellable | .getter _ value :: rest, spellable =>
    ⟨spellable.1, value.named spellable.2.1, properties_named rest spellable.2.2⟩

theorem Statement.named : (statement : Statement) → statement.Spellable alphabet →
    statement.Named alphabet
  | .variable _ _ initial, spellable => ⟨spellable.1.toIsName, initial.named spellable.2⟩
  | .function function, spellable => function.named spellable.2
  | .returnNothing, _ => trivial
  | .returnValue value, spellable => value.named spellable
  | .conditional condition thenBody none, spellable =>
    ⟨condition.named spellable.1, statements_named thenBody spellable.2.1, trivial⟩
  | .conditional condition thenBody (some elseBody), spellable =>
    ⟨condition.named spellable.1, statements_named thenBody spellable.2.1,
      statements_named elseBody spellable.2.2⟩
  | .loop condition body, spellable =>
    ⟨condition.named spellable.1, statements_named body spellable.2⟩
  | .block body, spellable => statements_named body spellable
  | .expression expression, spellable => expression.named spellable

theorem statements_named :
    (statements : List Statement) → SpellableStatements alphabet statements →
    NamedStatements alphabet statements
  | [], _ => trivial
  | first :: rest, spellable => ⟨first.named spellable.1, statements_named rest spellable.2⟩

end

/--
The text of a script reads back as what it writes of the script, whatever words
the language has beyond the first 128 characters.
-/
theorem read_render
    (alphabet : Alphabet)
    (program : List Statement)
    (spellable : SpellableStatements alphabet program) :
    read alphabet (render .spread program) = some (shownStatements program) := by
  have writes := writes_render (statements_named program spellable) .spread
  have enough := Nat.lt_succ_of_le writes.length_le
  have lines := statements_readable program spellable _ enough
  rw [statementSigns_eq] at writes enough
  exact reads_script lines _ enough writes

/--
A script with a sign before a sign, a call of a function at the start of a
statement and an `if` as a second branch.
-/
def nested : List Statement :=
  [.variable .constant "x"
      (.unary .negate (.binary .subtract (.number ⟨0xbff0000000000000⟩)
        (.binary .subtract (.number ⟨0x4004000000000000⟩) (.undefined)))),
    .expression (.call (.function (.make none ["y"] [.returnValue (.identifier "y")]))
      [.member (.number ⟨0x4014000000000000⟩) "size"]),
    .conditional (.identifier "x") [.returnNothing]
      (some [.conditional (.boolean true) []
        (some [.expression (.assignment "x" (.string "a\"b"))])])]

theorem read_render_nested :
    SpellableStatements .ascii nested ∧
      read .ascii (render .spread nested) = some (shownStatements nested) := by
  have isLetter : ∀ name ∈ ["x", "y", "size"], Alphabet.ascii.IsIdentifier name := by
    intro name member
    have all : ∀ name ∈ ["x", "y", "size"],
        hasLetters name ∧ keywords.contains name = false := by
      decide
    obtain ⟨letters, free⟩ := all name member
    exact isIdentifier_of_letters letters free
  have spellable : SpellableStatements .ascii nested := by
    have x := isLetter "x" (by decide)
    have y := isLetter "y" (by decide)
    have size := isLetter "size" (by decide)
    simp [nested, SpellableStatements, Statement.Spellable, Expression.Spellable,
      SpellableArguments, Function.Spellable, SpellableBranch, x, y, size.toIsName]
  exact ⟨spellable, read_render .ascii nested spellable⟩

end Script

end Toolshed
