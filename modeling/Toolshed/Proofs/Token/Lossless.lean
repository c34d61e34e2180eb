import Toolshed.Proofs.Position
import Toolshed.Proofs.Token.Scan

namespace Toolshed

/-!
# Scanning loses nothing

The tokens of a text cover it, each where the one before it stops, and every
fault lies inside one of them.
-/

namespace Lexeme

theorem prefix_commentBody (characters : List Char) :
    (commentBody characters).1 <+: characters := by
  fun_induction commentBody characters with
  | case1 => exact List.prefix_rfl
  | case2 rest => exact ⟨rest, rfl⟩
  | case3 character rest _ taken closed found ih =>
    rw [found] at ih
    exact (List.prefix_cons_inj character).mpr ih

theorem prefix_stringBody (offset : Nat) (characters : List Char) :
    (stringBody offset characters).taken <+: characters := by
  fun_induction stringBody offset characters with
  | case6 offset escaped rest _ body _ _ ih
  | case7 offset escaped rest _ body _ ih =>
    exact (List.prefix_cons_inj _).mpr ((List.prefix_cons_inj escaped).mpr ih)
  | case8 offset character rest _ _ _ _ _ body ih =>
    exact (List.prefix_cons_inj character).mpr ih
  | case1 | case2 | case3 | case4 | case5 => simp

theorem prefix_fraction (characters : List Char) : fraction characters <+: characters := by
  unfold fraction
  split
  · split
    · simp [List.takeWhile_prefix]
    · exact List.nil_prefix
  · exact List.nil_prefix

theorem prefix_symbol? {first : Char} {rest tail : List Char} {sign : Symbol}
    (found : symbol? first rest = some (sign, tail)) : tail <+: rest := by
  unfold symbol? at found
  split at found <;> simp only [Option.some.injEq, reduceCtorEq] at found
  all_goals
    obtain ⟨rfl, rfl⟩ := found
    simp

theorem prefix_read (first : Char) (rest : List Char) : (read first rest).tail <+: rest := by
  unfold read
  repeat' split
  · exact List.takeWhile_prefix _
  · exact List.takeWhile_prefix _
  · rename_i isBlock
    obtain ⟨character, rest, rfl⟩ : ∃ character later, rest = character :: later := by
      cases rest <;> simp at isBlock ⊢
    obtain ⟨_, rfl⟩ : _ ∧ character = '*' := by simpa using isBlock
    exact (List.prefix_cons_inj _).mpr (prefix_commentBody rest)
  · exact prefix_stringBody 1 rest
  · obtain ⟨later, isRest⟩ := List.takeWhile_prefix (l := rest) isDigit
    have isLater : rest.drop (rest.takeWhile isDigit).length = later := by
      conv => enter [1, 2]; rw [← isRest]
      exact List.drop_left
    simp only [number, isLater]
    conv => right; rw [← isRest]
    exact (List.prefix_append_right_inj _).mpr (prefix_fraction later)
  · exact List.takeWhile_prefix _
  · unfold symbol
    split
    · rename_i found
      exact prefix_symbol? found
    · exact List.nil_prefix

theorem append_read (first : Char) (rest : List Char) :
    (read first rest).tail ++ rest.drop (read first rest).tail.length = rest :=
  List.prefix_iff_eq_append.mp (prefix_read first rest)

end Lexeme

namespace Token

/--
Tokens without a gap between them, from a position on: each has some text and
covers it, and the next one starts where it stops. The mark of the end, and only
it, is empty and stands last.
-/
inductive Contiguous : Position → List Token → Prop
  | finish {start : Position} : Contiguous start [finish start]
  | token {start : Position} {token : Token} {later : List Token}
      (written : token.raw ≠ "")
      (proper : token.kind ≠ .finish)
      (range : token.range = ⟨start, start.after token.raw.toList⟩)
      (rest : Contiguous token.range.stop later) : Contiguous start (token :: later)

def Covers (token : Token) (diagnostic : Diagnostic) : Prop :=
  ∃ range,
    diagnostic.place = .range range ∧
      token.range.start ≤ range.start ∧ range.start ≤ range.stop ∧ range.stop ≤ token.range.stop

variable {start : Position} {characters : List Char}

theorem kind_read_ne_finish (first : Char) (rest : List Char) :
    (Lexeme.read first rest).kind ≠ .finish := by
  unfold Lexeme.read
  repeat' split
  all_goals simp [Lexeme.space, Lexeme.lineComment, Lexeme.blockComment, Lexeme.string,
    Lexeme.number, Lexeme.plain]
  · unfold Lexeme.word
    dsimp only
    split <;> simp
  · unfold Lexeme.symbol
    split <;> simp [Lexeme.plain]

theorem flatMap_raw_scanFrom (start : Position) (characters : List Char) :
    (scanFrom start characters).tokens.flatMap (fun token => token.raw.toList) = characters := by
  fun_induction scanFrom start characters with
  | case1 start => simp [finish]
  | case2 start first rest lexeme raw later ih =>
    simp only [List.flatMap_cons, later, ih, ofLexeme, String.toList_ofList,
      List.cons_append, lexeme, Lexeme.append_read]

theorem contiguous_scanFrom (start : Position) (characters : List Char) :
    Contiguous start (scanFrom start characters).tokens := by
  fun_induction scanFrom start characters with
  | case1 start => exact .finish
  | case2 start first rest lexeme raw later ih =>
    refine .token ?_ (kind_read_ne_finish first rest) ?_ ih
    · simp [ofLexeme]
    · simp [ofLexeme]

theorem covers_diagnosticOf (first : Char) (lexeme : Lexeme) {blemish : Blemish}
    (ordered : blemish.start ≤ blemish.stop) :
    (ofLexeme start first lexeme).Covers (diagnosticOf start (first :: lexeme.tail) blemish) := by
  refine ⟨_, rfl, Position.le_after _ _, ?_, ?_⟩
  · exact Position.after_le_after start (List.take_prefix_take_left ordered)
  · exact Position.after_le_after start (List.take_prefix _ _)

theorem covers_scanFrom (start : Position) (characters : List Char) :
    ∀ diagnostic ∈ (scanFrom start characters).diagnostics,
      ∃ token ∈ (scanFrom start characters).tokens, token.Covers diagnostic := by
  fun_induction scanFrom start characters with
  | case1 start => simp
  | case2 start first rest lexeme raw later ih =>
    intro diagnostic member
    rcases List.mem_append.mp member with isFirst | isLater
    · obtain ⟨blemish, isBlemish, rfl⟩ := List.mem_map.mp isFirst
      have ordered := (Lexeme.textual_read first rest blemish isBlemish).2
      exact ⟨_, List.mem_cons_self, covers_diagnosticOf first lexeme ordered⟩
    · obtain ⟨token, isToken, covers⟩ := ih diagnostic isLater
      exact ⟨token, List.mem_cons_of_mem _ isToken, covers⟩

theorem within_scanFrom (start : Position) (front characters : List Char)
    (isStart : start = Position.origin.after front) :
    (∀ token ∈ (scanFrom start characters).tokens, token.range.Within (front ++ characters)) ∧
      ∀ diagnostic ∈ (scanFrom start characters).diagnostics,
        diagnostic.place.Fits (Range.Within (front ++ characters)) := by
  fun_induction scanFrom start characters generalizing front with
  | case1 start =>
    subst isStart
    refine ⟨List.forall_mem_singleton.mpr ?_, by simp⟩
    exact Range.within_point (Position.in_after front List.nil_prefix)
  | case2 start first rest lexeme raw later ih =>
    subst isStart
    have isText : front ++ raw ++ rest.drop lexeme.tail.length = front ++ first :: rest := by
      simp only [raw, List.append_assoc, List.cons_append, lexeme, Lexeme.append_read]
    have isRaw : raw <+: first :: rest :=
      (List.prefix_cons_inj first).mpr (Lexeme.prefix_read first rest)
    obtain ⟨tokens, diagnostics⟩ :=
      ih (front ++ raw) (Position.after_append _ front raw).symm
    rw [isText] at tokens diagnostics
    refine ⟨List.forall_mem_cons.mpr ⟨⟨?_, ?_, Position.le_after _ _⟩, tokens⟩,
      List.forall_mem_append.mpr ⟨?_, diagnostics⟩⟩
    · exact Position.in_after front List.nil_prefix
    · exact Position.in_after front isRaw
    · intro diagnostic member
      obtain ⟨blemish, isBlemish, rfl⟩ := List.mem_map.mp member
      have ordered := (Lexeme.textual_read first rest blemish isBlemish).2
      exact ⟨Position.in_after front ((List.take_prefix _ _).trans isRaw),
        Position.in_after front ((List.take_prefix _ _).trans isRaw),
        Position.after_le_after _ (List.take_prefix_take_left ordered)⟩

end Token

theorem Item.finishPosition_of_tokens {holds : Position → Prop} {tokens : List Token}
    (origin : holds .origin) (stops : ∀ token ∈ tokens, holds token.range.stop) :
    holds (finishPosition tokens) := by
  unfold finishPosition
  split
  · rename_i token found
    exact stops token (List.mem_reverse.mp (List.mem_of_find?_eq_some found))
  · split
    · rename_i token found
      exact stops token (List.mem_of_getLast? found)
    · exact origin

def Allowance.within (text : List Char) : Allowance where
  name _ := True
  range := Range.Within text
  origin := Range.within_point (Position.in_origin text)
  merge := Range.Within.merge

theorem SyntaxTree.within_parse (text : String) :
    (∀ range ∈ (parse (Token.scan text).tokens).tree.arena.locations, range.Within text.toList) ∧
      ∀ diagnostic ∈
          (Token.scan text).diagnostics ++ (parse (Token.scan text).tokens).diagnostics,
        diagnostic.place.Fits (Range.Within text.toList) := by
  obtain ⟨ranges, faults⟩ := Token.within_scanFrom .origin [] text.toList rfl
  have allowed : Token.Allowed (.within text.toList) (Token.scan text).tokens := by
    refine ⟨fun _ _ _ => trivial, ranges, Range.within_point ?_⟩
    exact Item.finishPosition_of_tokens (Position.in_origin _) fun token member =>
      (ranges token member).stop
  obtain ⟨state, sound, sameArena, sameDiagnostics, _⟩ := SyntaxTree.parse_spec allowed
  rw [sameArena, sameDiagnostics]
  refine ⟨sound.ranges, List.forall_mem_append.mpr ⟨faults, fun diagnostic member => ?_⟩⟩
  exact (sound.diagnostics diagnostic member).2

end Toolshed
