import Toolshed.Proofs.Grammar.Levels
import Toolshed.Proofs.Grammar.Parallel
import Toolshed.Proofs.Syntax.Shown

namespace Toolshed

/-!
# Reading up to the limit on nesting

Readers are followed on items that they read without a fault, unless the phrase
is nested too deeply. Once that has been reported it stays so.
-/

namespace ParseState

variable {item : Item}

structure Passes (before after : ParseState) (rest : List Item) : Prop where
  rest : after.rest = rest
  finish : after.finish = before.finish
  depth : after.depth = before.depth
  diagnostics : after.diagnostics = before.diagnostics
  within : before.arena.Within after.arena

structure Overflows (room : Nat) (before after : ParseState) : Prop where
  reported : ∃ place, ⟨.tooDeep, place⟩ ∈ after.diagnostics
  deep : maxNesting < before.depth + room

variable {room more : Nat} {before middle after state : ParseState} {rest others : List Item}

theorem Passes.refl (state : ParseState) : state.Passes state state.rest :=
  ⟨rfl, rfl, rfl, rfl, .refl _⟩

theorem Passes.trans (first : before.Passes middle others) (second : middle.Passes after rest) :
    before.Passes after rest :=
  ⟨second.rest, second.finish.trans first.finish, second.depth.trans first.depth,
    second.diagnostics.trans first.diagnostics, first.within.trans second.within⟩

theorem Passes.overflows (passes : before.Passes middle others)
    (overflows : middle.Overflows room after) : before.Overflows room after :=
  ⟨overflows.reported, passes.depth ▸ overflows.deep⟩

variable (items : state.rest = item :: rest)
include items

theorem passes_advance : state.Passes state.advance rest := by
  simp only [advance, items]
  exact ⟨rfl, rfl, rfl, rfl, .refl _⟩

theorem current_eq : state.current = item := by
  simp [current, items]

theorem kind_eq : state.kind = item.kind := by
  rw [kind, current_eq items]

end ParseState

namespace Parse

open ParseState

variable {α β : Type} {room more : Nat} {state : ParseState} {rest others : List Item}

/-- What was reported before a reader stays reported. -/
class Keeps (reader : Parse α) : Prop where
  kept : ∀ state, state.diagnostics <+: (reader state).2.diagnostics

instance (priority := low) [Answers α] (reader : Parse α) [Uniform reader] : Keeps reader :=
  ⟨Parallel.kept reader⟩

instance Keeps.bind (reader : Parse α) (following : α → Parse β) [first : Keeps reader]
    [later : ∀ value, Keeps (following value)] : Keeps (reader >>= following) where
  kept state := by
    have kept := first.kept state
    rcases result : reader state with ⟨_ | value, after⟩
    · rw [bind_none following result]
      rwa [result] at kept
    · rw [bind_some following result]
      rw [result] at kept
      exact kept.trans ((later value).kept after)

instance (decision : Prop) [Decidable decision] (first second : Parse α) [Keeps first]
    [Keeps second] : Keeps (if decision then first else second) := by
  split <;> assumption

/-- A reader comes to some items without a fault, and what it answers is right. -/
def Gets
    (state : ParseState)
    (reader : Parse α)
    (rest : List Item)
    (found : α → Arena → Prop) : Prop :=
  ∃ value,
    (reader state).1 = some value ∧ state.Passes (reader state).2 rest ∧
      found value (reader state).2.arena

/--
A reader comes to some items as it should, or there is no room for what it reads
and this is reported.
-/
def ReadsTo
    (room : Nat)
    (state : ParseState)
    (reader : Parse α)
    (rest : List Item)
    (found : α → Arena → Prop) : Prop :=
  state.Overflows room (reader state).2 ∨ Gets state reader rest found

namespace Gets

variable {found : α → Arena → Prop} {reader : Parse α} {value : α} {after : ParseState}
variable {item : Item} {kind : TokenKind}

theorem of_eq (result : reader state = (some value, after)) (passes : state.Passes after rest)
    (holds : found value after.arena) : Gets state reader rest found := by
  refine ⟨value, ?_⟩
  rw [result]
  exact ⟨rfl, passes, holds⟩

theorem next (items : state.rest = item :: rest) :
    Gets state Parse.next rest fun token _ => token = item.token :=
  .of_eq rfl (passes_advance items) (by rw [current_eq items])

theorem expect (items : state.rest = item :: rest) (isKind : item.kind = kind) :
    Gets state (Parse.expect kind) rest fun _ _ => True := by
  have shape : Parse.expect kind state = (some (), state.advance) := by
    simp [Parse.expect, nextIs, kind_eq items, isKind]
  exact .of_eq shape (passes_advance items) trivial

theorem eat (items : state.rest = item :: rest) (isKind : item.kind = kind) :
    Gets state (Parse.eat kind) rest fun eaten _ => eaten = true := by
  have shape : Parse.eat kind state = (some true, state.advance) := by
    simp [Parse.eat, nextIs, kind_eq items, isKind]
  exact .of_eq shape (passes_advance items) rfl

theorem eat_nothing (items : state.rest = rest) (isOther : state.kind ≠ kind) :
    Gets state (Parse.eat kind) rest fun eaten _ => eaten = false := by
  have shape : Parse.eat kind state = (some false, state) := by
    simp [Parse.eat, nextIs, isOther]
  exact .of_eq shape (items ▸ .refl state) rfl

theorem name (items : state.rest = item :: rest) (isName : item.kind = .identifier) :
    Gets state Parse.name rest fun text _ =>
      text = item.token.value.getD item.token.raw := by
  have shape : Parse.name state =
      (some (item.token.value.getD item.token.raw), state.advance) := by
    simp [Parse.name, nextIs, kind_eq items, isName, current_eq items]
  exact .of_eq shape (passes_advance items) rfl

theorem terminator (items : state.rest = rest) (notSemicolon : state.kind ≠ .symbol .semicolon)
    (ends : state.current.fresh = true ∨ state.kind = .finish) :
    Gets state Parse.terminator rest fun _ _ => True := by
  have shape : Parse.terminator state = (some (), state) := by
    rcases ends with isFresh | isFinish
    · simp [Parse.terminator, nextIs, notSemicolon, isFresh]
    · simp [Parse.terminator, nextIs, atFinish, isFinish]
  exact .of_eq shape (items ▸ .refl state) trivial

end Gets

namespace ReadsTo

variable {found : β → Arena → Prop}
variable {reader : Parse β} {value : β} {after : ParseState} {following : α → Parse β}
variable {between : α → Arena → Prop} {node : Node}

theorem pure (items : state.rest = rest) (holds : found value state.arena) :
    ReadsTo room state (Pure.pure value) rest found :=
  .inr (.of_eq rfl (items ▸ .refl state) holds)

theorem step {reader : Parse α} {value : α} (result : reader state = (some value, after))
    (passes : state.Passes after others) (reads : ReadsTo room after (following value) rest found) :
    ReadsTo room state (reader >>= following) rest found := by
  unfold ReadsTo Gets
  rw [bind_some following result]
  rcases reads with overflows | ⟨last, answered, further, holds⟩
  · exact .inl (passes.overflows overflows)
  · exact .inr ⟨last, answered, passes.trans further, holds⟩

theorem pass {reader : Parse α} (first : Gets state reader others between)
    (second :
      ∀ value after,
        state.Passes after others →
        between value after.arena →
        ReadsTo room after (following value) rest found) :
    ReadsTo room state (reader >>= following) rest found := by
  obtain ⟨value, answered, passes, holds⟩ := first
  exact step (Prod.ext answered rfl) passes (second value _ passes holds)

theorem bind {reader : Parse α} [later : ∀ value, Keeps (following value)]
    (first : ReadsTo room state reader others between)
    (second :
      ∀ value after,
        state.Passes after others →
        between value after.arena →
        ReadsTo room after (following value) rest found) :
    ReadsTo room state (reader >>= following) rest found := by
  rcases first with overflows | gets
  · rcases result : reader state with ⟨answer, after⟩
    rw [result] at overflows
    refine .inl ⟨?_, overflows.deep⟩
    obtain ⟨place, reported⟩ := overflows.reported
    cases answer with
    | none =>
      rw [bind_none following result]
      exact ⟨place, reported⟩
    | some value =>
      rw [bind_some following result]
      exact ⟨place, ((later value).kept after).subset reported⟩
  · exact pass gets second

theorem ask {question : ParseState → α}
    (reads : ReadsTo room state (following (question state)) rest found) :
    ReadsTo room state (Parse.ask question >>= following) rest found :=
  reads

theorem branch {decision : Prop} [Decidable decision] {first second : Parse α}
    (reads : ReadsTo room state ((if decision then first else second) >>= following) rest found) :
    ReadsTo room state (if decision then first >>= following else second >>= following) rest
      found := by
  split
  · rwa [if_pos ‹_›] at reads
  · rwa [if_neg ‹_›] at reads

theorem imp {weaker : β → Arena → Prop} (reads : ReadsTo room state reader rest found)
    (implies : ∀ value arena, found value arena → weaker value arena) :
    ReadsTo room state reader rest weaker :=
  reads.imp_right fun ⟨value, answered, passes, holds⟩ =>
    ⟨value, answered, passes, implies value _ holds⟩

theorem deeper {levels : Nat} {phrase : Parse β} (spare : 0 < room)
    (enough : maxNesting ≤ levels + state.depth)
    (inside :
      ∀ level,
        levels = level + 1 →
        maxNesting ≤ level + state.entered.depth →
        ReadsTo (room - 1) state.entered phrase rest found) :
    ReadsTo room state (Parse.deeper phrase) rest found := by
  by_cases isDeep : maxNesting ≤ state.depth
  · refine .inl ⟨?_, by omega⟩
    rw [deeper_of_deep _ isDeep]
    exact ⟨_, List.mem_append_right _ (List.mem_singleton_self _)⟩
  · obtain ⟨level, rfl⟩ : ∃ level, levels = level + 1 :=
      Nat.exists_eq_add_one_of_ne_zero (by omega)
    have reads := inside level rfl (by simp only [entered]; omega)
    unfold ReadsTo Gets
    rw [deeper_of_not_deep _ isDeep]
    rcases reads with overflows | ⟨value, answered, passes, holds⟩
    · have deep := overflows.deep
      exact .inl ⟨overflows.reported, by simp only [entered] at deep; omega⟩
    · refine .inr ⟨value, answered, ⟨passes.rest, passes.finish, ?_, passes.diagnostics,
        passes.within⟩, holds⟩
      rw [withdrawn, passes.depth]
      exact Nat.add_sub_cancel _ _

theorem attempt {phrase : Parse α} {following : Option α → Parse β}
    [succeeded : ∀ value, Keeps (following (some value))] [failed : Keeps (following none)]
    (first : ReadsTo room state phrase others between)
    (second :
      ∀ value after,
        state.Passes after others →
        between value after.arena →
        ReadsTo room after (following (some value)) rest found) :
    ReadsTo room state (Parse.attempt phrase >>= following) rest found := by
  have later : ∀ answer, Keeps (following answer) := by
    intro answer
    cases answer with
    | none => exact failed
    | some value => exact succeeded value
  have attempted : ReadsTo room state (Parse.attempt phrase) others fun answer arena =>
      ∃ value, answer = some value ∧ between value arena := by
    rcases first with overflows | ⟨value, answered, passes, holds⟩
    · exact .inl overflows
    · exact .inr ⟨some value, congrArg some answered, passes, value, rfl, holds⟩
  refine bind attempted ?_
  rintro _ after passes ⟨value, rfl, holds⟩
  exact second value after passes holds

theorem make {range : Range} {found : NodeId → Arena → Prop} (items : state.rest = rest)
    (holds : found state.arena.next (state.arena.add node range)) :
    ReadsTo room state (Parse.make node range) rest found :=
  .inr (.of_eq rfl ⟨items, rfl, rfl, rfl, Arena.within_add _ _ _⟩ holds)

theorem makeFrom {start : Range} {found : NodeId → Arena → Prop} (items : state.rest = rest)
    (holds : ∀ range, found state.arena.next (state.arena.add node range)) :
    ReadsTo room state (Parse.makeFrom start node) rest found :=
  make items (holds (state.rangeFrom start))

end ReadsTo

end Parse

end Toolshed
