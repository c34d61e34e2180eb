import Toolshed.Proofs.Token.Lossless

namespace Toolshed

/-!
# The lexical grammar

What the tokens of each kind may look like, said without reading a text.
-/

namespace Lexeme

def meaning : Char → Char
  | 'n' => '\n'
  | 't' => '\t'
  | 'r' => '\r'
  | other => other

def escapable : List Char :=
  ['"', '\\', 'n', 't', 'r']

inductive Quoted (escapes : Char → Prop) : List Char → List Char → Prop
  | nil : Quoted escapes [] []
  | plain {character : Char} {written meant : List Char}
      (isPlain : character ≠ '"' ∧ character ≠ '\\' ∧ character ≠ '\n')
      (rest : Quoted escapes written meant) :
      Quoted escapes (character :: written) (character :: meant)
  | escape {escaped : Char} {written meant : List Char} (isEscape : escapes escaped)
      (rest : Quoted escapes written meant) :
      Quoted escapes ('\\' :: escaped :: written) (meaning escaped :: meant)

/-- A text that is a lexeme of a kind, with the value it has. -/
inductive Complete (escapes : Char → Prop) : TokenKind → Option String → List Char → Prop
  | whitespace {first : Char} {rest : List Char}
      (blank : ∀ character ∈ first :: rest, isSpace character = true) :
      Complete escapes .whitespace none (first :: rest)
  | lineComment {body : List Char} (oneLine : '\n' ∉ body) :
      Complete escapes .comment none ('/' :: '/' :: body)
  | blockComment {body : List Char} (isFirst : ¬['*', '/'] <:+: body ++ ['*']) :
      Complete escapes .comment none ('/' :: '*' :: (body ++ ['*', '/']))
  | identifier {first : Char} {rest : List Char} (starts : isNameStart first = true)
      (parts : ∀ character ∈ rest, isNamePart character = true)
      (free : ∀ word : Keyword, word.text ≠ String.ofList (first :: rest)) :
      Complete escapes .identifier (some (String.ofList (first :: rest))) (first :: rest)
  | keyword (word : Keyword) : Complete escapes (.keyword word) (some word.text) word.text.toList
  | integer {first : Char} {rest : List Char}
      (digits : ∀ character ∈ first :: rest, isDigit character = true) :
      Complete escapes .number (some (String.ofList (first :: rest))) (first :: rest)
  | fraction {first second : Char} {whole part : List Char}
      (digits : ∀ character ∈ first :: whole ++ second :: part, isDigit character = true) :
      Complete escapes .number (some (String.ofList (first :: (whole ++ '.' :: second :: part))))
        (first :: (whole ++ '.' :: second :: part))
  | string {written meant : List Char} (quoted : Quoted escapes written meant) :
      Complete escapes .string (some (String.ofList meant)) ('"' :: (written ++ ['"']))
  | symbol (sign : Symbol) : Complete escapes (.symbol sign) none sign.text.toList

/-- A text that is no lexeme but stands for one, by the text that comes after it. -/
inductive Broken : List Char → TokenKind → Option String → List Char → Prop
  | comment {body : List Char} (isOpen : ¬['*', '/'] <:+: body) :
      Broken [] .comment none ('/' :: '*' :: body)
  | string {after written meant : List Char} (quoted : Quoted (· ≠ '\n') written meant)
      (atEnd : after.head? = none ∨ after.head? = some '\n') {last : List Char}
      (mark : last = [] ∨ last = ['\\']) :
      Broken after .string (some (String.ofList meant)) ('"' :: (written ++ last))
  | character {after : List Char} {other : Char}
      (isOther : isSpace other = false ∧ isDigit other = false ∧ isNameStart other = false)
      (isNoMark : other ≠ '"' ∧ ∀ sign : Symbol, sign.text.toList ≠ [other]) :
      Broken after .unrecognised none [other]

variable {first : Char} {rest : List Char} {piece : List Char}

theorem ne_newline_of_escapable (character : Char) (isEscape : character ∈ escapable) :
    character ≠ '\n' := by
  rintro rfl
  exact absurd isEscape (by decide)

theorem commentBody_spec (characters : List Char) :
    if (commentBody characters).2 then
      ∃ body, (commentBody characters).1 = body ++ ['*', '/'] ∧ ¬['*', '/'] <:+: body ++ ['*']
    else
      (commentBody characters).1 = characters ∧ ¬['*', '/'] <:+: characters := by
  fun_induction commentBody characters with
  | case1 => simp
  | case2 rest => exact ⟨[], rfl, by simp [List.infix_cons_iff]⟩
  | case3 character rest notEnd taken closed found ih =>
    rw [found] at ih
    cases closed with
    | true =>
      obtain ⟨body, rfl, isFirst⟩ := ih
      refine ⟨character :: body, rfl, ?_⟩
      rw [List.cons_append, List.infix_cons_iff, not_or]
      refine ⟨?_, isFirst⟩
      have isRest := prefix_commentBody rest
      rw [found] at isRest
      rintro ⟨more, isMark⟩
      cases body with
      | nil => simp at isMark
      | cons second body =>
        obtain ⟨later, rfl⟩ := isRest
        obtain ⟨rfl, isSecond⟩ := List.cons.inj isMark
        obtain ⟨rfl, _⟩ := List.cons.inj isSecond
        exact notEnd _ rfl rfl
    | false =>
      obtain ⟨rfl, isOpen⟩ := ih
      refine ⟨rfl, ?_⟩
      rw [List.infix_cons_iff, not_or]
      refine ⟨?_, isOpen⟩
      rintro ⟨more, isMark⟩
      obtain ⟨rfl, rfl⟩ := List.cons.inj isMark
      exact notEnd more rfl rfl

theorem commentBody_append {body : List Char} (isFirst : ¬['*', '/'] <:+: body ++ ['*'])
    (more : List Char) :
    commentBody (body ++ '*' :: '/' :: more) = (body ++ ['*', '/'], true) := by
  induction body with
  | nil => rfl
  | cons character body ih =>
    rw [List.cons_append, List.infix_cons_iff, not_or] at isFirst
    rw [List.cons_append]
    unfold commentBody
    split
    · rename_i nothing
      exact absurd nothing (List.cons_ne_nil _ _)
    · rename_i isMark
      obtain ⟨rfl, isSecond⟩ := List.cons.inj isMark
      cases body with
      | nil => simp at isSecond
      | cons second body =>
        obtain ⟨rfl, _⟩ := List.cons.inj isSecond
        exact (isFirst.1 ⟨_, rfl⟩).elim
    · rename_i isRest
      obtain ⟨rfl, rfl⟩ := List.cons.inj isRest
      rw [ih isFirst.2]
      rfl

theorem escape?_eq (escaped : Char) :
    escape? escaped = if escaped ∈ escapable then some (meaning escaped) else none := by
  unfold escape?
  split <;> simp_all [escapable, meaning]

theorem meaning_eq {escaped : Char} (isNew : escaped ∉ escapable) : meaning escaped = escaped := by
  unfold meaning
  split <;> simp_all [escapable]

theorem stringBody_spec (offset : Nat) (characters : List Char) :
    ∃ written last after,
      characters = written ++ last ++ after ∧
        (stringBody offset characters).taken = written ++ last ∧
        Quoted (· ≠ '\n') written (stringBody offset characters).decoded ∧
        ((stringBody offset characters).blemishes = [] →
          Quoted (· ∈ escapable) written (stringBody offset characters).decoded) ∧
        if (stringBody offset characters).closed then
          last = ['"']
        else
          (last = [] ∨ last = ['\\']) ∧ (after.head? = none ∨ after.head? = some '\n') := by
  fun_induction stringBody offset characters with
  | case1 => exact ⟨[], [], [], rfl, rfl, .nil, fun _ => .nil, by simp⟩
  | case2 _ rest => exact ⟨[], ['"'], rest, rfl, rfl, .nil, fun _ => .nil, rfl⟩
  | case3 _ rest => exact ⟨[], [], '\n' :: rest, rfl, rfl, .nil, fun _ => .nil, by simp⟩
  | case4 => exact ⟨[], ['\\'], [], rfl, rfl, .nil, fun _ => .nil, by simp⟩
  | case5 _ rest => exact ⟨[], ['\\'], '\n' :: rest, rfl, rfl, .nil, fun _ => .nil, by simp⟩
  | case6 offset escaped rest notNewline body meant found ih =>
    obtain ⟨written, last, after, rfl, taken, quoted, known, ends⟩ := ih
    rw [escape?_eq] at found
    split at found
    · rename_i isKnown
      obtain rfl := Option.some.inj found
      exact ⟨'\\' :: escaped :: written, last, after, rfl, congrArg (['\\', escaped] ++ ·) taken,
        .escape (ne_newline_of_escapable escaped isKnown) quoted,
        fun silent => .escape isKnown (known silent), ends⟩
    · cases found
  | case7 offset escaped rest notNewline body found ih =>
    obtain ⟨written, last, after, rfl, taken, quoted, known, ends⟩ := ih
    rw [escape?_eq] at found
    split at found
    · cases found
    · rename_i isNew
      refine ⟨'\\' :: escaped :: written, last, after, rfl, congrArg (['\\', escaped] ++ ·) taken,
        ?_, fun silent => absurd silent (List.cons_ne_nil _ _), ends⟩
      have escaping := Quoted.escape notNewline quoted
      rwa [meaning_eq isNew] at escaping
  | case8 offset character rest notQuote notNewline notLast _ notEscape body ih =>
    obtain ⟨written, last, after, rfl, taken, quoted, known, ends⟩ := ih
    have notBackslash : character ≠ '\\' := by
      rintro rfl
      cases isRest : written ++ last ++ after with
      | nil => exact notLast rfl isRest
      | cons escaped rest => exact notEscape escaped rest rfl isRest
    exact ⟨character :: written, last, after, rfl, congrArg (character :: ·) taken,
      .plain ⟨notQuote, notBackslash, notNewline⟩ quoted,
      fun silent => .plain ⟨notQuote, notBackslash, notNewline⟩ (known silent), ends⟩

theorem stringBody_quoted {escapes : Char → Prop} {written meant : List Char}
    (quoted : Quoted escapes written meant) (sameLine : ¬escapes '\n') (offset : Nat)
    (more : List Char) :
    (stringBody offset (written ++ '"' :: more)).taken = written ++ ['"'] ∧
      (stringBody offset (written ++ '"' :: more)).closed = true ∧
      ((∀ character, escapes character → character ∈ escapable) →
        (stringBody offset (written ++ '"' :: more)).blemishes = []) := by
  induction quoted generalizing offset with
  | nil => exact ⟨rfl, rfl, fun _ => rfl⟩
  | plain isPlain _ ih =>
    unfold stringBody
    split <;> simp_all
  | @escape escaped written meant isEscape _ ih =>
    obtain ⟨taken, closed, silent⟩ := ih (offset + 2)
    have notNewline : escaped ≠ '\n' := by
      rintro rfl
      exact sameLine isEscape
    rw [List.cons_append, List.cons_append, stringBody]
    · split
      · exact ⟨congrArg (['\\', escaped] ++ ·) taken, closed, silent⟩
      · rename_i isNew
        refine ⟨congrArg (['\\', escaped] ++ ·) taken, closed, fun known => ?_⟩
        simp [escape?_eq, known escaped isEscape] at isNew
    · exact notNewline

structure Lawful (first : Char) (rest : List Char) (lexeme : Lexeme) : Prop where
  shape :
    Complete (· ≠ '\n') lexeme.kind lexeme.value (first :: lexeme.tail) ∨
      Broken (rest.drop lexeme.tail.length) lexeme.kind lexeme.value (first :: lexeme.tail)
  silent :
    lexeme.blemishes = [] ↔
      Complete (· ∈ escapable) lexeme.kind lexeme.value (first :: lexeme.tail)

theorem lawful_of_complete {lexeme : Lexeme}
    (complete :
      ∀ escapes, Complete escapes lexeme.kind lexeme.value (first :: lexeme.tail))
    (silent : lexeme.blemishes = []) : Lawful first rest lexeme :=
  ⟨.inl (complete _), fun _ => complete _, fun _ => silent⟩

theorem lawful_space (isBlank : isSpace first = true) : Lawful first rest (space rest) := by
  refine lawful_of_complete (fun _ => .whitespace (List.forall_mem_cons.mpr ⟨isBlank, ?_⟩)) rfl
  exact fun character member => List.mem_takeWhile_imp member

theorem lawful_lineComment (isMark : rest.head? = some '/') :
    Lawful '/' rest (lineComment rest) := by
  obtain ⟨more, rfl⟩ := List.head?_eq_some_iff.mp isMark
  refine lawful_of_complete (fun escapes => ?_) rfl
  refine .lineComment fun member => ?_
  simpa using List.mem_takeWhile_imp member

theorem lawful_blockComment (body : List Char) :
    Lawful '/' ('*' :: body) (blockComment body) := by
  have spec := commentBody_spec body
  unfold blockComment
  cases closed : (commentBody body).2 with
  | true =>
    rw [closed] at spec
    obtain ⟨inside, isTaken, isFirst⟩ := spec
    refine lawful_of_complete (fun escapes => ?_) (by simp [closed])
    simp only [isTaken]
    exact .blockComment isFirst
  | false =>
    rw [closed] at spec
    obtain ⟨isTaken, isOpen⟩ := spec
    refine ⟨.inr ?_, by simp [closed], fun complete => ?_⟩
    · simp only [isTaken, List.drop_length]
      exact .comment isOpen
    · simp only [isTaken] at complete
      generalize isText : '/' :: '*' :: body = text at complete
      cases complete with
      | lineComment => cases isText
      | @blockComment inside _ =>
        obtain rfl : body = inside ++ ['*', '/'] := by simpa using isText
        exact (isOpen List.infix_append_right).elim

theorem lawful_string (rest : List Char) : Lawful '"' rest (string rest) := by
  obtain ⟨written, last, after, isRest, taken, quoted, known, ends⟩ := stringBody_spec 1 rest
  have isAfter : rest.drop (written ++ last).length = after := by
    rw [isRest, List.drop_left]
  refine ⟨?_, fun silent => ?_, fun complete => ?_⟩
  · simp only [string, taken, isAfter]
    split at ends
    · subst ends
      exact .inl (.string quoted)
    · exact .inr (.string quoted ends.2 ends.1)
  · obtain ⟨noBlemish, isClosed⟩ := List.append_eq_nil_iff.mp silent
    cases closed : (stringBody 1 rest).closed with
    | true =>
      rw [closed, if_pos rfl] at ends
      simp only [string, taken, ends]
      exact .string (known noBlemish)
    | false => simp [closed] at isClosed
  · have isText : rest = (stringBody 1 rest).taken ++ after := taken ▸ isRest
    simp only [string] at complete
    generalize (stringBody 1 rest).taken = tail, some (String.ofList _) = value at complete isText
    cases complete with
    | @string inside meant strict =>
      obtain rfl : rest = inside ++ '"' :: after := by simpa using isText
      obtain ⟨_, closed, silent⟩ := stringBody_quoted strict
        (fun isEscape => ne_newline_of_escapable _ isEscape rfl) 1 after
      simp [string, closed, silent fun _ => id]

theorem lawful_number (digit : isDigit first = true) : Lawful first rest (number first rest) := by
  refine lawful_of_complete (fun escapes => ?_) rfl
  have whole : ∀ character ∈ rest.takeWhile isDigit, isDigit character = true :=
    fun character member => List.mem_takeWhile_imp member
  unfold number fraction
  dsimp only
  split
  · split
    · rename_i second more _ isDigit
      refine .fraction (List.forall_mem_append.mpr ⟨List.forall_mem_cons.mpr ⟨digit, whole⟩,
        List.forall_mem_cons.mpr ⟨isDigit, fun character member => List.mem_takeWhile_imp member⟩⟩)
    · rw [List.append_nil]
      exact .integer (List.forall_mem_cons.mpr ⟨digit, whole⟩)
  · rw [List.append_nil]
    exact .integer (List.forall_mem_cons.mpr ⟨digit, whole⟩)

theorem lawful_word (starts : isNameStart first = true) : Lawful first rest (word first rest) := by
  refine lawful_of_complete (fun escapes => ?_) rfl
  unfold word
  dsimp only
  split
  · rename_i keyword found
    have isText : keyword.text = String.ofList (first :: rest.takeWhile isNamePart) := by
      simpa using List.find?_some found
    have complete : Complete escapes _ _ _ := .keyword keyword
    rwa [isText, String.toList_ofList] at complete
  · rename_i notFound
    refine .identifier starts (fun character member => List.mem_takeWhile_imp member) ?_
    intro keyword isText
    have isListed : keyword ∈ Keyword.all := by cases keyword <;> decide
    simpa [isText] using List.find?_eq_none.mp notFound keyword isListed

theorem symbol?_text {sign : Symbol} {tail : List Char}
    (found : symbol? first rest = some (sign, tail)) : sign.text.toList = first :: tail := by
  unfold symbol? at found
  split at found <;> simp only [Option.some.injEq, reduceCtorEq] at found
  all_goals
    obtain ⟨rfl, rfl⟩ := found
    decide

theorem symbol?_ne_none {sign : Symbol} (isText : sign.text.toList = [first]) :
    symbol? first rest ≠ none := by
  cases sign <;> simp [Symbol.text] at isText <;> subst isText <;> unfold symbol? <;>
    split <;> simp_all

theorem lawful_symbol
    (isOther : isSpace first = false ∧ isDigit first = false ∧ isNameStart first = false)
    (notQuote : first ≠ '"') : Lawful first rest (symbol first rest) := by
  unfold symbol
  split
  · rename_i sign tail found
    refine lawful_of_complete (fun escapes => ?_) rfl
    simp only [plain, ← symbol?_text found]
    exact .symbol sign
  · rename_i notFound
    refine ⟨.inr (.character isOther ⟨notQuote, fun sign isText => ?_⟩), by simp,
      fun complete => ?_⟩
    · exact symbol?_ne_none isText notFound
    · cases complete

theorem lawful_read (first : Char) (rest : List Char) : Lawful first rest (read first rest) := by
  unfold read
  repeat' split
  · exact lawful_space ‹_›
  · rename_i isLine
    obtain ⟨rfl, isMark⟩ := isLine
    exact lawful_lineComment isMark
  · rename_i isBlock
    obtain ⟨rfl, isMark⟩ := isBlock
    obtain ⟨body, rfl⟩ := List.head?_eq_some_iff.mp isMark
    exact lawful_blockComment body
  · rename_i isQuote
    subst isQuote
    exact lawful_string rest
  · exact lawful_number ‹_›
  · exact lawful_word ‹_›
  · rename_i notSpace _ _ notQuote notDigit notName
    exact lawful_symbol ⟨by simpa using notSpace, by simpa using notDigit, by simpa using notName⟩
      notQuote

theorem length_le_takeWhile {holds : Char → Bool} (more : List Char)
    (all : ∀ character ∈ piece, holds character = true) :
    piece.length ≤ ((piece ++ more).takeWhile holds).length := by
  rw [List.takeWhile_append_of_pos all, List.length_append]
  exact Nat.le_add_right _ _

theorem read_namePart (isPart : isNamePart first = true) :
    read first rest = if isDigit first then number first rest else word first rest := by
  have differs : ∀ other, isNamePart other = false → first ≠ other := by
    rintro other notPart rfl
    exact absurd isPart (by simp [notPart])
  have notSpace : isSpace first = false := by
    simp [isSpace, differs ' ' (by decide), differs '\t' (by decide), differs '\r' (by decide),
      differs '\n' (by decide)]
  have starts : isDigit first = false → isNameStart first = true := by
    intro notDigit
    simpa [isNamePart, notDigit] using isPart
  unfold read
  rw [if_neg (by simp [notSpace]), if_neg (by simp [differs '/' (by decide)]),
    if_neg (by simp [differs '/' (by decide)]), if_neg (differs '"' (by decide))]
  split
  · rfl
  · rename_i notDigit
    rw [if_pos (starts (by simpa using notDigit))]

theorem not_isDigit (starts : isNameStart first = true) : isDigit first = false := by
  by_contra digit
  simp only [isDigit, Bool.not_eq_false, decide_eq_true_eq] at digit
  simp only [isNameStart, decide_eq_true_eq] at starts
  rcases starts with ⟨above, _⟩ | ⟨above, _⟩ | rfl
  · exact absurd (Char.le_trans above digit.2) (by decide)
  · exact absurd (Char.le_trans above digit.2) (by decide)
  · exact absurd digit.2 (by decide)

theorem Keyword.exists_text (word : Keyword) :
    ∃ first rest,
      word.text.toList = first :: rest ∧
        isNameStart first = true ∧ ∀ character ∈ rest, isNamePart character = true := by
  cases word <;> exact ⟨_, _, rfl, by decide, List.all_eq_true.mp (by decide)⟩

theorem symbol_text (sign : Symbol) :
    (∃ first, sign.text.toList = [first]) ∨
      ∃ first second,
        sign.text.toList = [first, second] ∧
          ∀ more, (read first (second :: more)).tail = [second] := by
  cases sign
  all_goals first
    | exact .inl ⟨_, rfl⟩
    | exact .inr ⟨_, _, rfl, fun _ => rfl⟩

theorem length_le_read {kind : TokenKind} {value : Option String}
    (complete : Complete (· ≠ '\n') kind value piece) (isFront : piece <+: first :: rest) :
    piece.length ≤ (first :: (read first rest).tail).length := by
  obtain ⟨more, isText⟩ := isFront
  cases complete with
  | whitespace blank =>
    obtain ⟨rfl, rfl⟩ := List.cons.inj isText
    obtain ⟨isBlank, areBlank⟩ := List.forall_mem_cons.mp blank
    rw [read, if_pos isBlank]
    exact Nat.succ_le_succ (length_le_takeWhile more areBlank)
  | @lineComment body oneLine =>
    obtain ⟨rfl, rfl⟩ : '/' = first ∧ '/' :: body ++ more = rest := List.cons.inj isText
    have within : ∀ character ∈ '/' :: body, decide (character ≠ '\n') = true := by
      intro character member
      have different : character ≠ '\n' := by
        rintro rfl
        simp [oneLine] at member
      simpa using different
    exact Nat.succ_le_succ (length_le_takeWhile more within)
  | @blockComment body isFirst =>
    obtain ⟨rfl, rfl⟩ : '/' = first ∧ '*' :: (body ++ '*' :: '/' :: more) = rest := by
      simpa using isText
    have isRead : read '/' ('*' :: (body ++ '*' :: '/' :: more)) =
        blockComment (body ++ '*' :: '/' :: more) := rfl
    rw [isRead, blockComment, commentBody_append isFirst]
  | identifier starts parts _ =>
    obtain ⟨rfl, rfl⟩ := List.cons.inj isText
    rw [read_namePart (by simp [isNamePart, starts]), not_isDigit starts]
    exact Nat.succ_le_succ (length_le_takeWhile more parts)
  | keyword word =>
    obtain ⟨start, parts, isWord, starts, areParts⟩ := Keyword.exists_text word
    rw [isWord] at isText ⊢
    obtain ⟨rfl, rfl⟩ := List.cons.inj isText
    rw [read_namePart (by simp [isNamePart, starts]), not_isDigit starts]
    exact Nat.succ_le_succ (length_le_takeWhile more areParts)
  | integer digits =>
    obtain ⟨rfl, rfl⟩ := List.cons.inj isText
    obtain ⟨isDigit, areDigits⟩ := List.forall_mem_cons.mp digits
    rw [read_namePart (by simp [isNamePart, isDigit]), if_pos isDigit]
    refine Nat.succ_le_succ (Nat.le_trans (length_le_takeWhile more areDigits) ?_)
    simp [number]
  | @fraction start second whole part digits =>
    obtain ⟨rfl, rfl⟩ : start = first ∧ whole ++ '.' :: second :: (part ++ more) = rest := by
      simpa using isText
    obtain ⟨wholeDigits, partDigits⟩ := List.forall_mem_append.mp digits
    obtain ⟨isDigit, areDigits⟩ := List.forall_mem_cons.mp wholeDigits
    obtain ⟨isSecond, areLater⟩ := List.forall_mem_cons.mp partDigits
    rw [read_namePart (by simp [isNamePart, isDigit]), if_pos isDigit]
    have isWhole : (whole ++ '.' :: second :: (part ++ more)).takeWhile Lexeme.isDigit = whole := by
      rw [List.takeWhile_append_of_pos areDigits]
      simp [Lexeme.isDigit]
    simp only [number, isWhole, List.drop_left, fraction, if_pos isSecond]
    have later := length_le_takeWhile more areLater
    simp only [List.length_cons, List.length_append]
    omega
  | @string written meant quoted =>
    obtain ⟨rfl, rfl⟩ : '"' = first ∧ written ++ '"' :: more = rest := by simpa using isText
    have isRead : read '"' (written ++ '"' :: more) = string (written ++ '"' :: more) := rfl
    obtain ⟨taken, _⟩ := stringBody_quoted quoted (fun different => different rfl) 1 more
    rw [isRead]
    simp [string, taken]
  | symbol sign =>
    rcases symbol_text sign with ⟨start, isSign⟩ | ⟨start, second, isSign, isRead⟩
    · simp [isSign]
    · rw [isSign] at isText ⊢
      obtain ⟨rfl, rfl⟩ : start = first ∧ second :: more = rest := by simpa using isText
      rw [isRead]

end Lexeme

namespace Token

open Lexeme

/-- A token has its text by the grammar, and the text could not be longer. -/
structure Longest (after : List Char) (token : Token) : Prop where
  shape :
    Complete (· ≠ '\n') token.kind token.value token.raw.toList ∨
      Broken after token.kind token.value token.raw.toList
  longest :
    ∀ kind value piece,
      Complete (· ≠ '\n') kind value piece →
      piece <+: token.raw.toList ++ after →
      piece.length ≤ token.raw.toList.length

theorem longest_ofLexeme (start : Position) (first : Char) (rest : List Char) :
    (ofLexeme start first (read first rest)).Longest
      (rest.drop (read first rest).tail.length) := by
  have isText := append_read first rest
  refine ⟨?_, fun kind value piece complete isFront => ?_⟩
  · simp only [ofLexeme, String.toList_ofList]
    exact (lawful_read first rest).shape
  · simp only [ofLexeme, String.toList_ofList, List.cons_append, isText] at isFront ⊢
    exact length_le_read complete isFront

theorem longest_scanFrom (start : Position) (characters : List Char) {after : List Token}
    {token : Token} (notLast : after ≠ []) :
    ∀ before,
      (scanFrom start characters).tokens = before ++ token :: after →
      token.Longest (after.flatMap fun later => later.raw.toList) := by
  fun_induction scanFrom start characters with
  | case1 start =>
    intro before isThere
    have isSingle := congrArg List.length isThere
    have isLong := List.length_pos_of_ne_nil notLast
    simp only [List.length_append, List.length_cons, List.length_nil] at isSingle
    omega
  | case2 start first rest lexeme raw later ih =>
    intro before isThere
    cases before with
    | nil =>
      obtain ⟨rfl, rfl⟩ := List.cons.inj isThere
      rw [flatMap_raw_scanFrom]
      exact longest_ofLexeme start first rest
    | cons earlier before => exact ih before (List.cons.inj isThere).2

theorem tokens_scanFrom_ne_nil (start : Position) (characters : List Char) :
    (scanFrom start characters).tokens ≠ [] := by
  fun_cases scanFrom start characters <;> exact List.cons_ne_nil _ _

theorem silent_scanFrom_iff (start : Position) (characters : List Char) :
    (scanFrom start characters).diagnostics = [] ↔
      ∀ token ∈ (scanFrom start characters).tokens.dropLast,
        Complete (· ∈ escapable) token.kind token.value token.raw.toList := by
  fun_induction scanFrom start characters with
  | case1 start => simp
  | case2 start first rest lexeme raw later ih =>
    rw [List.append_eq_nil_iff, List.map_eq_nil_iff, ih,
      (lawful_read first rest).silent, List.dropLast_cons_of_ne_nil (tokens_scanFrom_ne_nil _ _),
      List.forall_mem_cons]
    simp only [ofLexeme, String.toList_ofList, lexeme]

/--
The tokens of a text make it up, and the empty mark of the end stands last. Every
other token is of the lexical grammar, and no longer piece of the text from its
start on is a whole lexeme of any kind. Nothing is wrong with the text exactly if
every token but the last is a whole lexeme that has only known escapes.
-/
theorem scan_longest_match (text : String) :
    (scan text).tokens.flatMap (fun token => token.raw.toList) = text.toList ∧
      Contiguous .origin (scan text).tokens ∧
      (∀ before token after,
        (scan text).tokens = before ++ token :: after →
        after ≠ [] →
        token.Longest (after.flatMap fun later => later.raw.toList)) ∧
      ((scan text).diagnostics = [] ↔
        ∀ token ∈ (scan text).tokens.dropLast,
          Complete (· ∈ escapable) token.kind token.value token.raw.toList) :=
  ⟨flatMap_raw_scanFrom .origin text.toList, contiguous_scanFrom .origin text.toList,
    fun before _ _ isThere notLast => longest_scanFrom .origin text.toList notLast before isThere,
    silent_scanFrom_iff .origin text.toList⟩

end Token

end Toolshed
