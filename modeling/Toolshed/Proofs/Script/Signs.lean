import Toolshed.Proofs.Script.Layouts

namespace Toolshed

/-!
# Reading signs

What a reader finds is told by the signs that it takes and by the first sign that
it leaves.
-/

namespace Script

open Reader

variable {α β : Type} {alphabet : Alphabet} {characters : List Char} {sign : Sign}
variable {signs later last : List Sign} {wanted : String} {value : α} {loop : Nat → β → Reader α}

def ahead (signs : List Sign) : Option Symbol :=
  signs.head?.map Sign.symbol

theorem Writes.length_le (writes : Writes alphabet characters signs) :
    signs.length ≤ characters.length := by
  induction writes with
  | done => exact Nat.zero_le _
  | more _ stands _ ih =>
    obtain ⟨first, others, spelled, _⟩ := stands.start
    simp only [List.length_append, spelled, List.length_cons]
    omega

theorem Writes.next (writes : Writes alphabet characters (sign :: signs)) :
    ∃ rest,
      Script.next alphabet characters = some (sign.symbol, rest) ∧ Writes alphabet rest signs ∧
        (sign.joined = true → breaksLine rest = false) := by
  cases writes with
  | @more blanks rest _ _ blank stands writes =>
    exact ⟨rest, (next_append_of_isBlank blank).trans stands.found, writes, stands.sameLine⟩

theorem Writes.blank (writes : Writes alphabet characters []) :
    characters.dropWhile isBlank = [] := by
  cases writes with
  | done blank => exact List.dropWhile_eq_nil_iff.mpr blank

section

variable (writes : Writes alphabet characters signs)
include writes

theorem Writes.ahead :
    (Script.next alphabet characters).map Prod.fst = Script.ahead signs := by
  cases signs with
  | nil => simp [Script.next, writes.blank, Script.ahead]
  | cons sign signs =>
    obtain ⟨rest, found, _⟩ := writes.next
    rw [found]
    rfl

theorem Writes.mark_eq_none
    (other : Script.ahead signs ≠ some (.mark wanted)) :
    mark alphabet wanted characters = none := by
  rw [← writes.ahead] at other
  unfold mark
  split
  · rename_i found rest isNext
    refine if_neg fun same => other ?_
    rw [isNext, same]
    rfl
  · rfl

theorem Writes.word_eq_none
    (other : Script.ahead signs ≠ some (.word wanted)) :
    word alphabet wanted characters = none := by
  rw [← writes.ahead] at other
  unfold word
  split
  · rename_i found rest isNext
    refine if_neg fun same => other ?_
    rw [isNext, same]
    rfl
  · rfl

end

theorem Writes.mark (writes : Writes alphabet characters (.mark wanted :: signs)) :
    ∃ rest, Reader.mark alphabet wanted characters = some rest ∧ Writes alphabet rest signs := by
  obtain ⟨rest, found, writes, _⟩ := writes.next
  exact ⟨rest, by simp [Reader.mark, found, Sign.mark], writes⟩

def Reads (alphabet : Alphabet) (reader : Reader α) (signs : List Sign) (value : α)
    (later : List Sign) : Prop :=
  ∀ characters,
    Writes alphabet characters signs →
    ∃ rest, reader characters = some (value, rest) ∧ Writes alphabet rest later

namespace Reads

theorem found : Reads alphabet (fun rest => some (value, rest)) signs value signs :=
  fun characters writes => ⟨characters, rfl, writes⟩

theorem step {first : Reader β} {others : β × List Char → Option (α × List Char)} {part : β}
    (reads : Reads alphabet first signs part later)
    (following : Reads alphabet (fun rest => others (part, rest)) later value last) :
    Reads alphabet (fun characters => first characters >>= others) signs value last := by
  intro characters writes
  obtain ⟨rest, isPart, writes⟩ := reads characters writes
  obtain ⟨after, isValue, writes⟩ := following rest writes
  exact ⟨after, by simp only [isPart, Option.bind_eq_bind, Option.bind_some, isValue], writes⟩

theorem mark {others : Reader α} (following : Reads alphabet others signs value later) :
    Reads alphabet (fun characters => Reader.mark alphabet wanted characters >>= others)
      (.mark wanted :: signs) value later := by
  intro characters writes
  obtain ⟨rest, isMark, writes⟩ := writes.mark
  obtain ⟨after, isValue, writes⟩ := following rest writes
  exact ⟨after, by simp only [isMark, Option.bind_eq_bind, Option.bind_some, isValue], writes⟩

theorem congr {reader other : Reader α}
    (same : ∀ characters, Writes alphabet characters signs → reader characters = other characters)
    (reads : Reads alphabet other signs value later) :
    Reads alphabet reader signs value later := by
  intro characters writes
  obtain ⟨rest, isValue, writes'⟩ := reads characters writes
  exact ⟨rest, (same characters writes).trans isValue, writes'⟩

theorem symbol {reader others : Reader α}
    (same :
      ∀ characters rest,
        next alphabet characters = some (sign.symbol, rest) → reader characters = others rest)
    (following : Reads alphabet others signs value later) :
    Reads alphabet reader (sign :: signs) value later := by
  intro characters writes
  obtain ⟨rest, isNext, writes, _⟩ := writes.next
  obtain ⟨after, isValue, writes⟩ := following rest writes
  exact ⟨after, (same characters rest isNext).trans isValue, writes⟩

theorem name {given : String} : Reads alphabet (name alphabet) (.word given :: signs) given signs :=
  .symbol (fun _ _ isNext => by simp [Reader.name, isNext, Sign.word]) .found

theorem identifier {given : String} (isIdentifier : alphabet.IsIdentifier given) :
    Reads alphabet (identifier alphabet) (.word given :: signs) given signs :=
  .symbol (fun _ _ isNext => by
    simp only [Reader.identifier, isNext, Sign.word, isIdentifier.free, Bool.false_eq_true,
      if_false]) .found

end Reads

def Goes (alphabet : Alphabet) (loop : Nat → β → Reader α) (state : β) (signs : List Sign)
    (value : α) (later : List Sign) : Prop :=
  ∀ count, signs.length < count → Reads alphabet (loop count state) signs value later

theorem Goes.start {state : β} (goes : Goes alphabet loop state signs value later) :
    Reads alphabet (fun rest => loop (rest.length + 1) state rest) signs value later :=
  fun characters writes => goes _ (Nat.lt_succ_of_le writes.length_le) characters writes

theorem Goes.succ {state : β}
    (reads :
      ∀ count, signs.length ≤ count → Reads alphabet (loop (count + 1) state) signs value later) :
    Goes alphabet loop state signs value later := by
  intro count enough
  cases count with
  | zero => exact absurd enough (Nat.not_lt_zero _)
  | succ count => exact reads count (Nat.le_of_lt_succ enough)

def Ready (signs : List Sign) : Prop :=
  ∃ mark ∈ [")", "\x7d", ",", ";"], ahead signs = some (.mark mark)

theorem Ready.ahead_ne (ready : Ready signs) (other : wanted ∉ [")", "\x7d", ",", ";"]) :
    ahead signs ≠ some (.mark wanted) := by
  obtain ⟨mark, member, isAhead⟩ := ready
  intro same
  exact other (Symbol.mark.inj (Option.some.inj (isAhead.symm.trans same)) ▸ member)

theorem ready_mark (member : wanted ∈ [")", "\x7d", ",", ";"]) : Ready (.mark wanted :: signs) :=
  ⟨wanted, member, rfl⟩

def Item (alphabet : Alphabet) (item : Reader α) (signs : List Sign) (value : α) : Prop :=
  ∀ later, Ready later → Reads alphabet item (signs ++ later) value later

/-- A list item that is readable and does not begin with the closing mark. -/
structure Entry (alphabet : Alphabet) (item : Reader α) (close : String) (signs : List Sign)
    (value : α) : Prop where
  opens : ∃ symbol, ahead signs = some symbol ∧ symbol ≠ .mark close
  reads : Item alphabet item signs value

variable {item : Reader α} {close : String} {rows : List (List Sign)} {values : List α}

theorem ahead_append {symbol : Symbol} (isAhead : ahead signs = some symbol) :
    ahead (signs ++ later) = some symbol := by
  cases signs with
  | nil => cases isAhead
  | cons sign signs => exact isAhead

theorem reads_items (entries : List.Forall₂ (Entry alphabet item close) rows values)
    (isClose : close ∈ [")", "\x7d"]) (nonempty : rows ≠ []) :
    ∀ count,
      (separated rows).length < count →
      Reads alphabet (items alphabet item close count) (separated rows ++ .mark close :: later)
        values later := by
  have ready : Ready (.mark close :: later) :=
    ready_mark (by revert isClose; simp; tauto)
  have noComma : ahead (.mark close :: later) ≠ some (.mark ",") := by
    rintro ⟨⟩
    exact absurd isClose (by decide)
  induction entries with
  | nil => exact absurd rfl nonempty
  | @cons row value rows values entry entries ih =>
    intro count enough
    cases count with
    | zero => exact absurd enough (Nat.not_lt_zero _)
    | succ count =>
      intro characters writes
      cases entries with
      | nil =>
        obtain ⟨rest, isItem, writes⟩ := entry.reads _ ready characters writes
        obtain ⟨after, closes, writes'⟩ := writes.mark
        exact ⟨after, by simp [items, isItem, writes.mark_eq_none noComma, closes], writes'⟩
      | @cons second _ others _ next entries =>
        simp only [separated, List.length_append, List.length_cons,
          List.append_assoc] at enough writes ih
        obtain ⟨rest, isItem, writes⟩ := entry.reads _ (ready_mark (by simp)) characters writes
        obtain ⟨rest, isComma, writes⟩ := writes.mark
        obtain ⟨after, isRow, writes⟩ := ih (by simp) count (by omega) rest writes
        exact ⟨after, by simp [items, isItem, isComma, isRow], writes⟩

theorem reads_list (entries : List.Forall₂ (Entry alphabet item close) rows values)
    (isClose : close ∈ [")", "\x7d"]) :
    Reads alphabet (list alphabet item close) (separated rows ++ .mark close :: later) values
      later := by
  intro characters writes
  cases entries with
  | nil =>
    obtain ⟨rest, closes, writes⟩ := writes.mark
    exact ⟨rest, by simp [list, closes], writes⟩
  | @cons row value rows values entry entries =>
    have opens : mark alphabet close characters = none := by
      obtain ⟨symbol, isAhead, other⟩ := entry.opens
      refine writes.mark_eq_none ?_
      cases rows with
      | nil => simpa [separated, ahead_append isAhead] using other
      | cons second others => simpa [separated, ahead_append isAhead] using other
    have enough := writes.length_le
    rw [List.length_append] at enough
    obtain ⟨rest, isRow, writes⟩ :=
      reads_items (.cons entry entries) isClose (by simp) (characters.length + 1) (by omega)
        characters writes
    exact ⟨rest, by simp [list, opens, isRow], writes⟩

structure Line (alphabet : Alphabet) (inner : Inner) (signs : List Sign) (read : Statement) :
    Prop where
  opens : ∃ symbol, ahead signs = some symbol ∧ symbol ≠ .mark "\x7d" ∧ symbol ≠ .word "else"
  reads :
    ∀ later,
      ahead later ≠ some (.word "else") →
      Reads alphabet inner.statement (signs ++ later) read later

variable {inner : Inner} {statements : List Statement}

variable (lines : List.Forall₂ (Line alphabet inner) rows statements)
include lines

theorem ahead_lines
    (noElse : ahead later ≠ some (.word "else")) :
    ahead (rows.flatten ++ later) ≠ some (.word "else") := by
  cases lines with
  | nil => exact noElse
  | cons line lines =>
    obtain ⟨symbol, isAhead, _, notElse⟩ := line.opens
    rw [List.flatten_cons, List.append_assoc, ahead_append isAhead]
    simpa using notElse

theorem reads_block :
    ∀ count,
      rows.flatten.length < count →
      Reads alphabet (block alphabet inner count) (rows.flatten ++ .mark "\x7d" :: later)
        statements later := by
  induction lines with
  | nil =>
    intro count enough characters writes
    obtain ⟨rest, closes, writes⟩ := writes.mark
    cases count with
    | zero => exact absurd enough (Nat.not_lt_zero _)
    | succ count => exact ⟨rest, by simp [block, closes], writes⟩
  | @cons row read rows others line lines ih =>
    intro count enough characters writes
    obtain ⟨symbol, isAhead, notClosed, _⟩ := line.opens
    rw [List.flatten_cons, List.append_assoc] at writes
    have opens : mark alphabet "\x7d" characters = none :=
      writes.mark_eq_none (by simpa [ahead_append isAhead] using notClosed)
    have longer : row ≠ [] := by rintro rfl; cases isAhead
    have positive := List.length_pos_of_ne_nil longer
    rw [List.flatten_cons, List.length_append] at enough
    cases count with
    | zero => exact absurd enough (Nat.not_lt_zero _)
    | succ count =>
      obtain ⟨rest, isFirst, writes⟩ := line.reads _ (ahead_lines lines (by rintro ⟨⟩)) _ writes
      obtain ⟨after, areOthers, writes⟩ := ih count (by omega) rest writes
      exact ⟨after, by simp [block, opens, isFirst, areOthers], writes⟩

theorem reads_script :
    ∀ count,
      rows.flatten.length < count →
      Writes alphabet characters rows.flatten →
      script inner count characters = some statements := by
  induction lines generalizing characters with
  | nil =>
    intro count enough writes
    cases count with
    | zero => exact absurd enough (Nat.not_lt_zero _)
    | succ count => simp [script, writes.blank]
  | @cons row read rows others line lines ih =>
    intro count enough writes
    obtain ⟨symbol, isAhead, _⟩ := line.opens
    have more : ¬ characters.dropWhile isBlank = [] := by
      intro isNil
      have isNext := writes.ahead
      rw [List.flatten_cons, ahead_append isAhead] at isNext
      simp [next, isNil] at isNext
    have longer : row ≠ [] := by rintro rfl; cases isAhead
    have positive := List.length_pos_of_ne_nil longer
    rw [List.flatten_cons, List.length_append] at enough
    cases count with
    | zero => exact absurd enough (Nat.not_lt_zero _)
    | succ count =>
      have noElse : ahead (rows.flatten ++ []) ≠ some (.word "else") :=
        ahead_lines lines (by simp [ahead])
      rw [List.append_nil] at noElse
      obtain ⟨rest, isFirst, writes⟩ := line.reads _ noElse _ writes
      simp [script, more, isFirst, ih count (by omega) writes]

end Script

end Toolshed
