import Mathlib.Data.List.TakeWhile
import Toolshed.Proofs.Grammar.Proper
import Toolshed.Proofs.Script.Name
import Toolshed.Token.Scan

namespace Toolshed

/-!
# What scanning finds

The faults of a text are in ranges of it, and its names have only the characters
that names can have.
-/

namespace Lexeme

def Textual (blemishes : List Blemish) : Prop :=
  ∀ blemish ∈ blemishes,
    (blemish.fault.kind ≠ .internal ∧ blemish.fault.kind ≠ .moduleResolution) ∧
      blemish.start ≤ blemish.stop

theorem textual_stringBody (offset : Nat) (characters : List Char) :
    Textual (stringBody offset characters).blemishes := by
  fun_induction stringBody offset characters with
  | case6 offset escaped rest _ body _ _ ih => exact ih
  | case7 offset escaped rest _ body _ ih =>
    exact List.forall_mem_cons.mpr ⟨by simp [Fault.kind], ih⟩
  | case8 offset character rest _ _ _ _ _ body ih => exact ih
  | case1 | case2 | case3 | case4 | case5 => simp [Textual]

theorem textual_read (first : Char) (rest : List Char) : Textual (read first rest).blemishes := by
  unfold read
  repeat' split
  · simp [Textual, space, plain]
  · simp [Textual, lineComment, plain]
  · simp only [Textual, blockComment]
    split <;> simp [Fault.kind]
  · simp only [Textual, string, List.mem_append]
    rintro blemish (inBody | isOpen)
    · exact textual_stringBody 1 rest blemish inBody
    · split at isOpen
      · simp at isOpen
      · obtain rfl := List.mem_singleton.mp isOpen
        simp [Fault.kind]
  · simp [Textual, number]
  · simp [Textual, word]
  · unfold symbol
    split <;> simp [Textual, plain, Fault.kind]

theorem ne_dollar_of_isNamePart {character : Char} (isPart : isNamePart character = true) :
    character ≠ '$' := by
  rintro rfl
  exact absurd isPart (by decide)

theorem read_identifier {first : Char} {rest : List Char}
    (isName : (read first rest).kind = .identifier) :
    ∃ name, (read first rest).value = some name ∧ DeclarableName name := by
  unfold read at isName ⊢
  repeat' split at isName
  · simp [space, plain] at isName
  · simp [lineComment, plain] at isName
  · simp [blockComment] at isName
  · simp [string] at isName
  · simp [number] at isName
  · rename_i notSpace notLine notBlock notString notDigit starts
    rw [if_neg notSpace, if_neg notLine, if_neg notBlock, if_neg notString, if_neg notDigit,
      if_pos starts]
    refine ⟨_, rfl, ?_, ?_⟩
    · have firstPart : isNamePart first = true := by simp [isNamePart, starts]
      simp only [PlainName, String.toList_ofList, List.mem_cons, not_or]
      refine ⟨(ne_dollar_of_isNamePart firstPart).symm, fun member => ?_⟩
      exact ne_dollar_of_isNamePart (List.mem_takeWhile_imp member) rfl
    · unfold word at isName
      dsimp only at isName
      split at isName
      · simp at isName
      · next notReserved => exact notReserved
  · unfold symbol at isName
    split at isName <;> simp [plain] at isName

end Lexeme

namespace Token

theorem scanFrom_inText (start : Position) (characters : List Char) (size : Nat) :
    ∀ diagnostic ∈ (scanFrom start characters).diagnostics, diagnostic.InText size := by
  fun_induction scanFrom start characters with
  | case1 start => simp
  | case2 start first rest lexeme raw later ih =>
    intro diagnostic member
    rcases List.mem_append.mp member with isFirst | isLater
    · obtain ⟨blemish, isBlemish, rfl⟩ := List.mem_map.mp isFirst
      exact ⟨(Lexeme.textual_read first rest blemish isBlemish).1, fun node place => by
        simp [diagnosticOf] at place⟩
    · exact ih diagnostic isLater

theorem declarableNames_scanFrom (start : Position) (characters : List Char) :
    AllowedNames DeclarableName (scanFrom start characters).tokens := by
  fun_induction scanFrom start characters with
  | case1 start => simp [AllowedNames, finish]
  | case2 start first rest lexeme raw later ih =>
    intro token member isName
    rcases List.mem_cons.mp member with rfl | isLater
    · obtain ⟨name, isValue, declarable⟩ := Lexeme.read_identifier isName
      have value : (ofLexeme start first lexeme).value = some name := isValue
      rw [value]
      exact declarable
    · exact ih token isLater isName

theorem declarableNames_scan (text : String) : AllowedNames DeclarableName (scan text).tokens :=
  declarableNames_scanFrom .origin text.toList

theorem scan_inText (text : String) (size : Nat) :
    ∀ diagnostic ∈ (scan text).diagnostics, diagnostic.InText size :=
  scanFrom_inText .origin text.toList size

theorem scan_located (text : String) (size : Nat) :
    ∀ diagnostic ∈ (scan text).diagnostics, diagnostic.Located size :=
  fun diagnostic member => (scan_inText text size diagnostic member).located

end Token

end Toolshed
