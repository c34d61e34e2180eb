import Toolshed.Grammar.SourceFile

namespace Toolshed

/-!
# Levels of nesting

A reader enters a level, reads a phrase and leaves the level again, whatever the
phrase answers. A loop over links leaves the levels of all of them at once; this is
the same as to leave each level after what follows its link.
-/

namespace ParseState

def entered (state : ParseState) : ParseState :=
  { state with depth := state.depth + 1 }

def withdrawn (state : ParseState) (levels : Nat) : ParseState :=
  { state with depth := state.depth - levels }

end ParseState

namespace Parse

variable {α β γ : Type} {state after : ParseState} {reader : Parse α}

theorem bind_some {value : α} (next : α → Parse β) (result : reader state = (some value, after)) :
    (reader >>= next) state = next value after := by
  simp [Bind.bind, result]

theorem bind_none (next : α → Parse β) (result : reader state = (none, after)) :
    (reader >>= next) state = (none, after) := by
  simp [Bind.bind, result]

theorem bind_congr {reader other : Parse α} (next : α → Parse β)
    (same : reader state = other after) : (reader >>= next) state = (other >>= next) after := by
  simp [Bind.bind, same]

theorem bind_assoc (reader : Parse α) (next : α → Parse β) (last : β → Parse γ) :
    reader >>= next >>= last = reader >>= fun value => next value >>= last := by
  funext state
  rcases result : reader state with ⟨_ | value, after⟩
  · rw [bind_none _ result, bind_none _ (bind_none next result)]
  · rw [bind_some _ result]
    rcases further : next value after with ⟨_ | answer, finish⟩
    · rw [bind_none _ further, bind_none _ ((bind_some next result).trans further)]
    · rw [bind_some _ further, bind_some _ ((bind_some next result).trans further)]

theorem attempt_bind {phrase : Parse α} {result : Option α} (next : Option α → Parse β)
    (read : phrase state = (result, after)) :
    (attempt phrase >>= next) state = next result after :=
  bind_some next (by simp [attempt, read])

theorem enter_of_deep (isDeep : maxNesting ≤ state.depth) :
    enter state = refuse (fun _ => .tooDeep) state :=
  if_pos isDeep

theorem enter_of_not_deep (notDeep : ¬maxNesting ≤ state.depth) :
    enter state = (some (), state.entered) :=
  if_neg notDeep

/-- Read a phrase one level deeper. -/
def deeper (phrase : Parse α) : Parse α := do
  enter
  let result ← attempt phrase
  leave
  answer result

theorem deeper_of_deep (phrase : Parse α) (isDeep : maxNesting ≤ state.depth) :
    deeper phrase state = refuse (fun _ => .tooDeep) state :=
  bind_none _ (enter_of_deep isDeep)

theorem deeper_of_not_deep (phrase : Parse α) (notDeep : ¬maxNesting ≤ state.depth) :
    deeper phrase state =
      ((phrase state.entered).1, (phrase state.entered).2.withdrawn 1) :=
  (bind_some _ (enter_of_not_deep notDeep)).trans (attempt_bind _ rfl)

theorem deeper_bind (phrase : Parse α) (next : α → Parse β) :
    (enter >>= fun _ =>
      attempt phrase >>= fun result => leave >>= fun _ => answer result >>= next) =
      deeper phrase >>= next := by
  simp only [deeper, bind_assoc]

end Parse

namespace Grammar

open Parse

theorem exists_statementsUpTo (statement : Parse NodeId) (fuel : Nat) (state : ParseState) :
    ∃ found after, statementsUpTo statement fuel state = (some found, after) := by
  induction fuel generalizing state with
  | zero => exact ⟨[], state, rfl⟩
  | succ fuel ih =>
    cases ends : state.nextIs (.symbol .rightBrace) || state.atFinish with
    | true => exact ⟨[], state, by simp [statementsUpTo, Bind.bind, ask, Pure.pure, ends]⟩
    | false =>
      rcases read : statement state with ⟨_ | node, after⟩
      · obtain ⟨found, last, rest⟩ := ih (after.synchronise state.rest.length)
        exact ⟨found, last, by
          simp [statementsUpTo, Bind.bind, ask, attempt, Parse.synchronise, ends, read, rest]⟩
      · obtain ⟨found, last, rest⟩ := ih after
        exact ⟨node :: found, last, by
          simp [statementsUpTo, Bind.bind, ask, attempt, Pure.pure, ends, read, rest]⟩

/-- Statements are always answered, so that they are left without an attempt. -/
theorem deeper_statements (statement : Parse NodeId) (next : List NodeId → Parse α) :
    (enter >>= fun _ => statements statement >>= fun found => leave >>= fun _ => next found) =
      deeper (statements statement) >>= next := by
  rw [← deeper_bind]
  congr 1
  funext _ state
  obtain ⟨found, after, read⟩ := exists_statementsUpTo statement state.rest.length state
  have isRead : statements statement state = (some found, after) := read
  rw [bind_some _ isRead, attempt_bind _ isRead]
  rfl

section Links

variable {κ : Type} {find : ParseState → Option κ} {link : κ → NodeId → Parse NodeId}
variable {finish : Nat → Option NodeId → Parse α} {sort : κ} {fuel links : Nat}
variable {before node : NodeId} {state after : ParseState}

attribute [local simp] Bind.bind

theorem linksUpTo_of_none (ends : find state = none) :
    linksUpTo find link finish (fuel + 1) links before state =
      finish links (some before) state := by
  simp [linksUpTo, ask, ends]

theorem linksUpTo_of_deep (finds : find state = some sort) (isDeep : maxNesting ≤ state.depth) :
    linksUpTo find link finish (fuel + 1) links before state =
      finish links none (state.report .tooDeep (.range state.current.range)) := by
  simp [linksUpTo, ask, attempt, enter, refuse, finds, isDeep]

theorem linksUpTo_of_fails (finds : find state = some sort) (notDeep : ¬maxNesting ≤ state.depth)
    (fails : link sort before state.entered = (none, after)) :
    linksUpTo find link finish (fuel + 1) links before state = finish (links + 1) none after := by
  rw [ParseState.entered] at fails
  simp [linksUpTo, ask, attempt, enter, finds, notDeep, fails]

theorem linksUpTo_of_reads (finds : find state = some sort) (notDeep : ¬maxNesting ≤ state.depth)
    (reads : link sort before state.entered = (some node, after)) :
    linksUpTo find link finish (fuel + 1) links before state =
      linksUpTo find link finish fuel (links + 1) node after := by
  rw [ParseState.entered] at reads
  simp [linksUpTo, ask, attempt, enter, finds, notDeep, reads]

/-- What a round comes to does not depend on how the loop finishes or on earlier links. -/
theorem linksUpTo_round (find : ParseState → Option κ) (link : κ → NodeId → Parse NodeId)
    (before : NodeId) (state : ParseState) :
    (∃ levels result last,
      ∀ {α : Type} (finish : Nat → Option NodeId → Parse α) fuel links,
        linksUpTo find link finish (fuel + 1) links before state =
          finish (links + levels) result last) ∨
      ∃ node after,
        ∀ {α : Type} (finish : Nat → Option NodeId → Parse α) fuel links,
          linksUpTo find link finish (fuel + 1) links before state =
            linksUpTo find link finish fuel (links + 1) node after := by
  cases finds : find state with
  | none => exact .inl ⟨0, _, _, fun _ _ _ => linksUpTo_of_none finds⟩
  | some sort =>
    by_cases isDeep : maxNesting ≤ state.depth
    · exact .inl ⟨0, _, _, fun _ _ _ => linksUpTo_of_deep finds isDeep⟩
    · rcases reads : link sort before state.entered with ⟨_ | node, after⟩
      · exact .inl ⟨1, _, _, fun _ _ _ => linksUpTo_of_fails finds isDeep reads⟩
      · exact .inr ⟨_, _, fun _ _ _ => linksUpTo_of_reads finds isDeep reads⟩

/-- What follows a loop can be done where it finishes. -/
theorem linksUpTo_bind {β : Type} (next : α → Parse β) (fuel links : Nat) (before : NodeId) :
    linksUpTo find link finish fuel links before >>= next =
      linksUpTo find link (fun links result => finish links result >>= next) fuel links before := by
  induction fuel generalizing links before with
  | zero => rfl
  | succ fuel ih =>
    funext state
    rcases linksUpTo_round find link before state with
      ⟨levels, result, last, round⟩ | ⟨node, after, round⟩
    · rw [round]
      exact bind_congr next (round finish fuel links)
    · rw [round, ← ih]
      exact bind_congr next (round finish fuel links)

/-- The links after a phrase, with their levels left. -/
def linked (find : ParseState → Option κ) (link : κ → NodeId → Parse NodeId) (fuel : Nat)
    (before : NodeId) : Parse NodeId :=
  linksUpTo find link leaving fuel 0 before

/-- The levels of links that were there before are left after the others. -/
theorem linksUpTo_leaving (fuel links : Nat) (before : NodeId) (state : ParseState) :
    linksUpTo find link leaving fuel links before state =
      ((linked find link fuel before state).1,
        (linked find link fuel before state).2.withdrawn links) := by
  induction fuel generalizing links before state with
  | zero => rfl
  | succ fuel ih =>
    rw [linked]
    rcases linksUpTo_round find link before state with
      ⟨levels, result, last, round⟩ | ⟨node, after, round⟩
    · rw [round, round]
      simp [leaving, leaveMany, answer, ParseState.withdrawn, Nat.sub_sub, Nat.add_comm]
    · rw [round, round, ih, ih (0 + 1)]
      simp [ParseState.withdrawn, Nat.sub_sub, Nat.add_comm]

theorem linked_succ (fuel : Nat) (before : NodeId) :
    linked find link (fuel + 1) before = (do
      match ← ask find with
      | some sort =>
        deeper do
          let node ← link sort before
          linked find link fuel node
      | none => return before) := by
  funext state
  cases finds : find state with
  | none =>
    rw [linked, linksUpTo_of_none finds]
    simp [leaving, leaveMany, answer, ask, finds, Pure.pure]
  | some sort =>
    have asked : ask find state = (some (some sort), state) := by
      rw [ask, finds]
    rw [linked, bind_some _ asked]
    show _ = deeper (link sort before >>= linked find link fuel) state
    by_cases isDeep : maxNesting ≤ state.depth
    · rw [deeper_of_deep _ isDeep]
      exact linksUpTo_of_deep finds isDeep
    · rw [deeper_of_not_deep _ isDeep]
      rcases reads : link sort before state.entered with ⟨_ | node, after⟩
      · rw [linksUpTo_of_fails finds isDeep reads, bind_none _ reads]
        rfl
      · rw [linksUpTo_of_reads finds isDeep reads, linksUpTo_leaving, bind_some _ reads]

end Links

theorem operators_eq (tier : Tier) (operand : Parse NodeId) (left : NodeId) :
    operators tier operand left =
      ask (·.rest.length) >>= fun rest =>
        linked (operator? tier) (fun entry => operation entry.2 operand) rest left :=
  rfl

/-- To count the levels and to leave them afterwards is to leave them in the loop. -/
theorem suffixes_eq (inner : Phrases) (subject : NodeId) :
    suffixes inner subject =
      ask (·.rest.length) >>= fun left => linked suffix? (link inner) left subject := by
  unfold suffixes
  congr 1
  funext left
  exact linksUpTo_bind _ left 0 subject

end Grammar

end Toolshed
