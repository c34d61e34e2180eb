import Toolshed.Proofs.Script.Spelling

namespace Toolshed

/-!
# Lexemes of scripts

A text is split into lexemes from left to right, each as long as it can be. Pieces
of a script write the same signs in every layout if no piece can go on with the
first character of what follows it.
-/

namespace Script

variable {alphabet : Alphabet} {characters rest : List Char} {character : Char} {blanks : List Char}

/-- A lexeme as it is written. -/
inductive Lexeme where
  | comment (text : String)
  | symbol (symbol : Symbol) (text : String)
  deriving Repr, DecidableEq

/-- What follows `*/`. -/
def afterBlockComment? : List Char → Option (List Char)
  | [] => none
  | '*' :: '/' :: rest => some rest
  | _ :: rest => afterBlockComment? rest

/-- What follows a comment at the start of some characters. -/
def afterComment? : List Char → Option (List Char)
  | '/' :: '/' :: rest => some (rest.dropWhile fun character => !isLineBreak character)
  | '/' :: '*' :: rest => afterBlockComment? rest
  | _ => none

def firstLexeme (alphabet : Alphabet) (characters : List Char) : Option (Lexeme × List Char) :=
  let taken := fun (rest : List Char) =>
    String.ofList (characters.take (characters.length - rest.length))
  match afterComment? characters with
  | some rest => some (.comment (taken rest), rest)
  | none => (next alphabet characters).map fun (symbol, rest) => (.symbol symbol (taken rest), rest)

/-- The lexemes of some characters. Each takes a character. -/
def lexemes (alphabet : Alphabet) (characters : List Char) : Option (List Lexeme) :=
  let start := characters.dropWhile isBlank
  if start.isEmpty then
    some []
  else
    match firstLexeme alphabet start with
    | none => none
    | some (lexeme, rest) =>
      if rest.length < start.length then
        (lexemes alphabet rest).map (lexeme :: ·)
      else
        none
termination_by characters.length
decreasing_by
  have shorter : start.length ≤ characters.length := (List.dropWhile_suffix isBlank).length_le
  omega

theorem lexemes_append_of_isBlank (blank : ∀ character ∈ blanks, isBlank character = true) :
    lexemes alphabet (blanks ++ rest) = lexemes alphabet rest := by
  rw [lexemes, lexemes, List.dropWhile_append_of_pos blank]

theorem lexemes_of_isBlank (blank : ∀ character ∈ characters, isBlank character = true) :
    lexemes alphabet characters = some [] := by
  rw [lexemes, List.dropWhile_eq_nil_iff.mpr blank]
  rfl

theorem next_comment (second : Char) (isComment : second = '/' ∨ second = '*') :
    next alphabet ('/' :: second :: rest) = none := by
  refine (next_mark (by decide) rfl).trans ?_
  rcases isComment with rfl | rfl
  · simp [readMark]
  · simp [readMark]

theorem afterComment?_of_next {symbol : Symbol}
    (found : next alphabet characters = some (symbol, rest)) : afterComment? characters = none := by
  unfold afterComment?
  split
  · exact absurd found (by simp [next_comment])
  · exact absurd found (by simp [next_comment])
  · rfl

theorem lexemes_of_next {symbol : Symbol} (notBlank : isBlank character = false)
    (found : next alphabet (character :: characters ++ rest) = some (symbol, rest)) :
    lexemes alphabet (character :: characters ++ rest) =
      (lexemes alphabet rest).map
        (.symbol symbol (String.ofList (character :: characters)) :: ·) := by
  have start : (character :: characters ++ rest).dropWhile isBlank =
      character :: characters ++ rest :=
    List.dropWhile_cons_of_neg (by simp [notBlank])
  have first : firstLexeme alphabet (character :: characters ++ rest) =
      some (.symbol symbol (String.ofList (character :: characters)), rest) := by
    unfold firstLexeme
    simp only [afterComment?_of_next found, found, Option.map_some, List.length_append,
      Nat.add_sub_cancel, List.take_left]
  rw [lexemes, start]
  simp only [first]
  rw [if_neg (by simp), if_pos (by rw [List.length_append, List.length_cons]; omega)]

/-- A lexeme that is no comment, `++` or `--`. -/
def Lexeme.IsPlain : Lexeme → Prop
  | .comment _ => False
  | .symbol _ text => text ∉ ["++", "--"]

structure Sign where
  text : String
  symbol : Symbol
  joined : Bool
  deriving Repr, DecidableEq

namespace Sign

def word (name : String) : Sign :=
  ⟨name, .word name, false⟩

def mark (characters : String) : Sign :=
  ⟨characters, .mark characters, false⟩

def quoted (value : String) : Sign :=
  ⟨quote value, .text value, false⟩

def numeral (value : Double) : Sign :=
  ⟨value.sizeText, .number (size value), false⟩

def returning : Sign :=
  ⟨"return", .word "return", true⟩

structure Stands (alphabet : Alphabet) (sign : Sign) (rest : List Char) : Prop where
  start : ∃ first later, sign.text.toList = first :: later ∧ isBlank first = false
  plain : sign.text ∉ ["++", "--"]
  found : next alphabet (sign.text.toList ++ rest) = some (sign.symbol, rest)
  sameLine : sign.joined = true → Reader.breaksLine rest = false

end Sign

inductive Writes (alphabet : Alphabet) : List Char → List Sign → Prop where
  | done {blanks : List Char} :
      (∀ character ∈ blanks, isBlank character = true) →
      Writes alphabet blanks []
  | more {blanks rest : List Char} {sign : Sign} {signs : List Sign} :
      (∀ character ∈ blanks, isBlank character = true) →
      sign.Stands alphabet rest →
      Writes alphabet rest signs →
      Writes alphabet (blanks ++ (sign.text.toList ++ rest)) (sign :: signs)

variable {signs : List Sign}

theorem Writes.lexemes (writes : Writes alphabet characters signs) :
    lexemes alphabet characters =
      some (signs.map fun sign => .symbol sign.symbol sign.text) := by
  induction writes with
  | done blank => exact lexemes_of_isBlank blank
  | @more blanks rest sign signs blank stands _ ih =>
    obtain ⟨first, later, spelled, notBlank⟩ := stands.start
    have found := stands.found
    rw [lexemes_append_of_isBlank blank]
    rw [spelled] at found ⊢
    rw [lexemes_of_next notBlank found, ih, ← spelled, String.ofList_toList]
    rfl

theorem Writes.isPlain (writes : Writes alphabet characters signs) :
    ∀ sign ∈ signs, (Lexeme.symbol sign.symbol sign.text).IsPlain := by
  induction writes with
  | done => exact List.forall_mem_nil _
  | more _ stands _ ih => exact List.forall_mem_cons.mpr ⟨stands.plain, ih⟩

theorem Writes.append_of_isBlank (blank : ∀ character ∈ blanks, isBlank character = true)
    (writes : Writes alphabet rest signs) : Writes alphabet (blanks ++ rest) signs := by
  cases writes with
  | done blankRest => exact .done (List.forall_mem_append.mpr ⟨blank, blankRest⟩)
  | more blankMore stands writes =>
    rw [← List.append_assoc]
    exact .more (List.forall_mem_append.mpr ⟨blank, blankMore⟩) stands writes

variable {follower : Option Char}

def Follows (follower : Option Char) (rest : List Char) : Prop :=
  ∀ character ∈ rest.head?, isBlank character = true ∨ follower = some character

def Sign.Before (alphabet : Alphabet) (sign : Sign) (follower : Option Char) : Prop :=
  ∀ rest, Follows follower rest → sign.Stands alphabet rest

theorem Follows.forall {P : Char → Prop} (follows : Follows follower rest)
    (blank : ∀ character, isBlank character = true → P character)
    (given : ∀ character ∈ follower, P character) : ∀ character ∈ rest.head?, P character := by
  intro character isHead
  rcases follows character isHead with isBlank | isGiven
  · exact blank character isBlank
  · exact given character isGiven

theorem Follows.ends (follows : Follows follower rest) (ends : alphabet.Ends follower.toList) :
    alphabet.Ends rest := by
  refine follows.forall (fun character blank => ?_) fun character isGiven => ?_
  · by_contra isPart
    have notBlank := alphabet.not_isBlank_of_isPart character ((Bool.not_eq_false _).mp isPart)
    rw [blank] at notBlank
    exact Bool.noConfusion notBlank
  · obtain rfl := Option.mem_def.mp isGiven
    exact ends character rfl

theorem Alphabet.not_mem_of_isStart (isStart : alphabet.isStart character = true) :
    character ∉ "=<>*/&|+-.".toList := by
  intro member
  have all : ∀ other ∈ "=<>*/&|+-.".toList,
      (decide (other.toNat < 128) && !(other.isAlpha || other = '$' || other = '_')) = true :=
    List.all_eq_true.mp (by decide)
  have listed := all character member
  simp only [Bool.and_eq_true, decide_eq_true_eq, Bool.not_eq_true'] at listed
  rw [alphabet.ascii_isStart character listed.1, listed.2] at isStart
  exact Bool.noConfusion isStart

theorem plain_of_first {text : String} {later : List Char}
    (spelled : text.toList = character :: later) (unsigned : character ∉ ['+', '-']) :
    text ∉ ["++", "--"] := by
  simp only [List.mem_cons, List.not_mem_nil, or_false, not_or] at unsigned ⊢
  constructor
  · rintro rfl
    exact unsigned.1 (List.cons.inj spelled).1.symm
  · rintro rfl
    exact unsigned.2 (List.cons.inj spelled).1.symm

theorem Sign.before_word {name : String} (isName : alphabet.IsName name)
    (ends : alphabet.Ends follower.toList) : (Sign.word name).Before alphabet follower := by
  obtain ⟨first, later, spelled, isStart⟩ := isName.start
  have notSign := alphabet.not_mem_of_isStart isStart
  have notBlank := alphabet.not_isBlank_of_isPart first (alphabet.isPart_of_isStart first isStart)
  intro rest follows
  exact ⟨⟨first, later, spelled, notBlank⟩, plain_of_first spelled (by simp_all),
    next_word isName (follows.ends ends), by simp [word]⟩

theorem Sign.before_quoted (value : String) : (Sign.quoted value).Before alphabet follower := by
  have spelled : (quote value).toList = '"' :: value.toList.flatMap quotedCharacter ++ ['"'] := by
    simp [quote]
  intro rest _
  exact ⟨⟨'"', _, spelled, by decide⟩, plain_of_first spelled (by decide), next_quote value,
    by simp [quoted]⟩

theorem Sign.before_numeral {value : Double} (isNumber : value.isNaN = false)
    (isFinite : value.isInfinite = false) (ends : alphabet.Ends follower.toList)
    (noPoint : follower ≠ some '.') : (Sign.numeral value).Before alphabet follower := by
  have isNumeral := isNumeral_sizeText isNumber isFinite
  obtain ⟨first, later, spelled, isDigit⟩ := isNumeral.exists_cons
  obtain ⟨_, notBlank, _⟩ := alphabet.not_isStart_of_isDigit isDigit
  intro rest follows
  refine ⟨⟨first, later, spelled, notBlank⟩, plain_of_first spelled fun isSign => ?_,
    next_numeral isNumeral (follows.ends ends) fun isPoint => ?_, by simp [numeral]⟩
  · have others : ∀ sign ∈ ['+', '-'], (!Decimal.isDigit sign) = true :=
      List.all_eq_true.mp (by decide)
    have notDigit := others first isSign
    rw [isDigit] at notDigit
    exact Bool.noConfusion notDigit
  · rcases follows '.' isPoint with blank | isGiven
    · exact absurd blank (by decide)
    · exact noPoint isGiven

theorem Sign.Stands.of_mark {mark : String} (member : mark ∈ marks) (plain : mark ∉ ["++", "--"])
    (found : next alphabet (mark.toList ++ rest) = some (.mark mark, rest)) :
    (Sign.mark mark).Stands alphabet rest := by
  have all : ∀ mark ∈ marks, mark.toList.head?.any fun first => !isBlank first :=
    List.all_eq_true.mp (by decide)
  have start := all mark member
  refine ⟨?_, plain, found, by simp [Sign.mark]⟩
  show ∃ first later, mark.toList = _ ∧ _
  cases spelled : mark.toList with
  | nil => simp [spelled] at start
  | cons first later => exact ⟨first, later, rfl, by simpa [spelled] using start⟩

theorem Sign.before_closed (mark : String) (member : mark ∈ closedMarks) :
    (Sign.mark mark).Before alphabet follower := by
  have all : ∀ mark ∈ closedMarks, mark ∈ marks ∧ mark ∉ ["++", "--"] := by
    decide
  exact fun rest _ => .of_mark (all mark member).1 (all mark member).2 (next_closed mark member)

theorem Sign.before_operator {mark : String} (member : mark ∈ operatorMarks)
    (leading : ∀ character ∈ follower, Leading character)
    (unsigned : mark = "-" → follower ≠ some '-') : (Sign.mark mark).Before alphabet follower := by
  have all : ∀ mark ∈ operatorMarks, mark ∈ marks ∧ mark ∉ ["++", "--"] := by decide
  have notBlank : ∀ character ∈ "=<>*/&|+".toList, (!isBlank character) = true :=
    List.all_eq_true.mp (by decide)
  intro rest follows
  refine .of_mark (all mark member).1 (all mark member).2 ?_
  refine next_operatorMark member (follows.forall (fun character blank isMark => ?_) leading)
    fun isMinus isHead => ?_
  · simpa [blank] using notBlank character isMark
  · rcases follows '-' isHead with blank | isGiven
    · exact absurd blank (by decide)
    · exact unsigned isMinus isGiven

theorem Sign.before_point (isStart : ∀ character ∈ follower, alphabet.isStart character = true) :
    (Sign.mark ".").Before alphabet follower := by
  intro rest follows
  refine .of_mark (by decide) (by decide) (next_point (fun isPoint => ?_) ?_)
  · rcases follows '.' isPoint with blank | isGiven
    · exact absurd blank (by decide)
    · exact alphabet.not_mem_of_isStart (isStart '.' isGiven) (by decide)
  · have notDigit : ∀ character ∈ rest.head?, ¬ Decimal.isDigit character = true := by
      refine follows.forall (fun character blank isDigit => ?_) fun character isGiven isDigit => ?_
      · simp [(alphabet.not_isStart_of_isDigit isDigit).2.1] at blank
      · simpa [(alphabet.not_isStart_of_isDigit isDigit).1] using isStart character isGiven
    cases rest with
    | nil => rfl
    | cons first later => simpa using notDigit first rfl

variable {pieces : List Piece} {layout : Layout}

def Text (alphabet : Alphabet) (pieces : List Piece) (signs : List Sign) : Prop :=
  ∀ layout, Writes alphabet ((Piece.readAll layout pieces).toList ++ ['\n']) signs

theorem toList_readAll_cons (piece : Piece) :
    (Piece.readAll layout (piece :: pieces)).toList =
      (piece.read layout).toList ++ (Piece.readAll layout pieces).toList := by
  simp [Piece.readAll]

theorem isBlank_of_read (layout : Layout) (piece : Piece)
    (isGap : ∀ characters, piece ≠ .text characters) :
    ∀ character ∈ (piece.read layout).toList, isBlank character = true := by
  have all : ∀ character ∈ [' ', '\n'], isBlank character = true :=
    List.all_eq_true.mp (by decide)
  intro character member
  refine all character ?_
  cases piece with
  | text characters => exact absurd rfl (isGap characters)
  | blank | thin => cases layout <;> simp [Piece.read] at member ⊢ <;> exact .inl member
  | line depth =>
    cases layout <;> simp [Piece.read] at member ⊢
    rcases member with isBreak | isSpace
    · exact .inr isBreak
    · exact .inl isSpace.2

theorem follows_readAll (layout : Layout) (pieces : List Piece) :
    Follows (firstCharacter? pieces) ((Piece.readAll layout pieces).toList ++ ['\n']) := by
  induction pieces with
  | nil => exact fun _ isHead => .inl (Option.some.inj isHead ▸ by decide)
  | cons piece pieces ih =>
    rw [toList_readAll_cons]
    intro character isHead
    cases spelled : (piece.read layout).toList with
    | nil =>
      rw [spelled] at isHead
      refine (ih character isHead).imp_right fun isFirst => ?_
      cases piece with
      | text characters =>
        rw [Piece.read] at spelled
        rwa [firstCharacter?, spelled]
      | blank => cases layout <;> cases spelled
      | thin | line depth => exact isFirst
    | cons first later =>
      rw [spelled] at isHead
      obtain rfl := Option.some.inj isHead
      cases piece with
      | text characters =>
        rw [Piece.read] at spelled
        rw [firstCharacter?, spelled]
        exact .inr rfl
      | blank | thin | line depth =>
        exact .inl (isBlank_of_read layout _ (by simp) first (spelled ▸ List.mem_cons_self))

namespace Text

theorem nil : Text alphabet [] [] :=
  fun _ => .done (List.forall_mem_singleton.mpr (by decide))

theorem sign (sign : Sign) (before : sign.Before alphabet (firstCharacter? pieces))
    (text : Text alphabet pieces signs) :
    Text alphabet (.text sign.text :: pieces) (sign :: signs) := by
  intro layout
  rw [toList_readAll_cons, List.append_assoc]
  exact .more (List.forall_mem_nil _) (before _ (follows_readAll layout pieces)) (text layout)

theorem gap {piece : Piece} (isGap : ∀ characters, piece ≠ .text characters)
    (text : Text alphabet pieces signs) : Text alphabet (piece :: pieces) signs := by
  intro layout
  rw [toList_readAll_cons, List.append_assoc]
  exact (text layout).append_of_isBlank (isBlank_of_read layout piece isGap)

theorem blank (text : Text alphabet pieces signs) : Text alphabet (.blank :: pieces) signs :=
  text.gap (by simp)

theorem thin (text : Text alphabet pieces signs) : Text alphabet (.thin :: pieces) signs :=
  text.gap (by simp)

theorem line (text : Text alphabet pieces signs) (depth : Nat) :
    Text alphabet (.line depth :: pieces) signs :=
  text.gap (by simp)

theorem join (first second : String)
    (text : Text alphabet (.text first :: .text second :: pieces) signs) :
    Text alphabet (.text (first ++ second) :: pieces) signs := by
  intro layout
  exact text layout

end Text

end Script

end Toolshed
