import Toolshed.Proofs.Script.Lexical
import Toolshed.Proofs.Token.Grammar

namespace Toolshed

/-!
# Texts between quotation marks

A quoted text is one literal of the script language and means the text that was
quoted.
-/

namespace Script

open Toolshed.Lexeme (escapable meaning stringBody)

variable {character : Char} {text rest : List Char} {offset : Nat}

/-- Neither a line break nor another control character. -/
def isVisible (character : Char) : Bool :=
  0x20 ≤ character.toNat && !isLineBreak character

/-- Whether a character is quoted by its code. -/
def isCoded (character : Char) : Bool :=
  character.toNat = 0x2028 || character.toNat = 0x2029 ||
    character.toNat < 0x20 && character ∉ ['\t', '\n', '\r']

theorem quotedCharacter_cases (character : Char) :
    (∃ escaped ∈ escapable,
      quotedCharacter character = ['\\', escaped] ∧ meaning escaped = character ∧
        isCoded character = false) ∨
      (quotedCharacter character = '\\' :: 'u' :: Escaped.fourDigits character ∧
        isCoded character = true) ∨
      (quotedCharacter character = [character] ∧ character ≠ '"' ∧ character ≠ '\\' ∧
        isVisible character = true ∧ isCoded character = false) := by
  by_cases known : ∃ escaped ∈ escapable, meaning escaped = character
  · obtain ⟨escaped, member, rfl⟩ := known
    have short : quotedCharacter (meaning escaped) = ['\\', escaped] ∧
        isCoded (meaning escaped) = false := by
      simp only [escapable, List.mem_cons, List.not_mem_nil, or_false] at member
      rcases member with rfl | rfl | rfl | rfl | rfl <;> decide
    exact .inl ⟨escaped, member, short.1, rfl, short.2⟩
  · obtain ⟨notQuote, notSlash, notLine, notTab, notReturn⟩ :
        character ≠ '"' ∧ character ≠ '\\' ∧ character ≠ '\n' ∧ character ≠ '\t' ∧
          character ≠ '\r' := by
      simpa [escapable, meaning, eq_comm] using known
    right
    unfold quotedCharacter
    simp only [notQuote, notSlash, notLine, notTab, notReturn, if_false]
    split
    · rename_i coded
      refine .inl ⟨rfl, ?_⟩
      simp [isCoded, notLine, notTab, notReturn] at coded ⊢
      omega
    · rename_i uncoded
      refine .inr ⟨rfl, notQuote, notSlash, ?_, ?_⟩
      all_goals
        simp [isVisible, isLineBreak, isCoded] at uncoded ⊢
        omega

theorem isVisible_quotedCharacter :
    ∀ written ∈ quotedCharacter character, isVisible written = true := by
  rcases quotedCharacter_cases character with
    ⟨escaped, member, written, _⟩ | ⟨written, coded⟩ | ⟨written, _, _, visible, _⟩
  · rw [written]
    exact List.forall_mem_cons.mpr ⟨by decide,
      List.forall_mem_singleton.mpr (List.all_eq_true.mp (by decide) escaped member)⟩
  · have digits : ∀ code ∈ 0x2028 :: 0x2029 :: List.range 0x20,
        ('\\' :: 'u' :: Escaped.fourDigits (Char.ofNat code)).all isVisible = true := by
      decide
    rw [written, ← Char.ofNat_toNat character]
    refine List.all_eq_true.mp (digits character.toNat ?_)
    simp [isCoded] at coded ⊢
    omega
  · rw [written]
    exact List.forall_mem_singleton.mpr visible

theorem stringBody_uncoded (offset : Nat) (rest : List Char)
    (uncoded : isCoded character = false) :
    ∃ later,
      stringBody offset (quotedCharacter character ++ rest) =
        { stringBody later rest with
          taken := quotedCharacter character ++ (stringBody later rest).taken
          decoded := character :: (stringBody later rest).decoded } := by
  rcases quotedCharacter_cases character with
    ⟨escaped, member, written, rfl, _⟩ | ⟨_, coded⟩ | ⟨written, notQuote, notSlash, visible, _⟩
  · refine ⟨offset + 2, ?_⟩
    rw [written, List.cons_append, List.cons_append, stringBody, Lexeme.escape?_eq, if_pos member]
    · rfl
    · exact Lexeme.ne_newline_of_escapable escaped member
  · simp [uncoded] at coded
  · have notLine : character ≠ '\n' := by
      rintro rfl
      exact absurd visible (by decide)
    refine ⟨offset + 1, ?_⟩
    rw [written, List.cons_append, stringBody]
    · rfl
    all_goals grind

theorem stringBody_quoted_of_uncoded (uncoded : ∀ character ∈ text, isCoded character = false) :
    stringBody offset (text.flatMap quotedCharacter ++ ['"']) =
      ⟨text.flatMap quotedCharacter ++ ['"'], text, [], true⟩ := by
  induction text generalizing offset with
  | nil => rfl
  | cons first others ih =>
    obtain ⟨isFirst, areOthers⟩ := List.forall_mem_cons.mp uncoded
    obtain ⟨later, body⟩ := stringBody_uncoded offset (others.flatMap quotedCharacter ++ ['"'])
      isFirst
    rw [List.flatMap_cons, List.append_assoc, body, ih areOthers]

theorem uncoded_of_silent
    (silent : (stringBody offset (text.flatMap quotedCharacter ++ rest)).blemishes = []) :
    ∀ character ∈ text, isCoded character = false := by
  induction text generalizing offset with
  | nil => simp
  | cons first others ih =>
    rw [List.flatMap_cons, List.append_assoc] at silent
    cases coded : isCoded first with
    | false =>
      obtain ⟨later, body⟩ := stringBody_uncoded offset (others.flatMap quotedCharacter ++ rest)
        coded
      rw [body] at silent
      exact List.forall_mem_cons.mpr ⟨coded, ih silent⟩
    | true =>
      -- The scanner does not know the escape and says so.
      have written : quotedCharacter first = '\\' :: 'u' :: Escaped.fourDigits first := by
        simpa [coded] using quotedCharacter_cases first
      rw [written, List.cons_append, List.cons_append, stringBody] at silent
      · exact absurd silent (List.cons_ne_nil _ _)
      · decide

/--
Every text survives quotation. It becomes a literal of scripts that has no raw line
break or control character, ends at its first free quotation mark and is decoded
to the text. The scanner of modules finds in it one string with the text as its
value, and nothing else, exactly if no character of it is quoted by its code.
-/
theorem quote_survives (text : String) :
    (∃ body,
      (quote text).toList = '"' :: body ∧ readText body = some (text.toList, []) ∧
        ∀ character ∈ body, isVisible character = true) ∧
      (∀ other, quote other = quote text → other = text) ∧
      ((∃ range,
        Token.scan (quote text) =
          ⟨[⟨.string, quote text, some text, range⟩, Token.finish range.stop], []⟩) ↔
        ∀ character ∈ text.toList, isCoded character = false) := by
  have written (text : String) :
      (quote text).toList = '"' :: (text.toList.flatMap quotedCharacter ++ ['"']) := by
    simp [quote]
  refine ⟨⟨_, written text, readText_quoted text.toList, ?_⟩, fun other same => ?_, ?_⟩
  · intro character member
    rcases List.mem_append.mp member with inside | last
    · obtain ⟨_, _, isWritten⟩ := List.mem_flatMap.mp inside
      exact isVisible_quotedCharacter character isWritten
    · obtain rfl := List.mem_singleton.mp last
      decide
  · have bodies := (List.cons.inj ((written other).symm.trans (same ▸ written text))).2
    have texts := (readText_quoted other.toList).symm.trans (bodies ▸ readText_quoted text.toList)
    exact String.toList_inj.mp (by simpa using texts)
  · have isString (body : List Char) : Lexeme.read '"' body = Lexeme.string body := rfl
    rw [Token.scan, written, Token.scanFrom, isString]
    constructor
    · rintro ⟨range, same⟩
      have silent := (Scan.mk.inj same).2
      simp only [List.append_eq_nil_iff, List.map_eq_nil_iff, Lexeme.string] at silent
      exact uncoded_of_silent silent.1.1
    · intro uncoded
      refine ⟨⟨.origin, Position.origin.after (quote text).toList⟩, ?_⟩
      simp only [Lexeme.string, stringBody_quoted_of_uncoded uncoded, List.drop_length,
        Token.scanFrom]
      simp [Token.ofLexeme, quote]

end Script

end Toolshed
