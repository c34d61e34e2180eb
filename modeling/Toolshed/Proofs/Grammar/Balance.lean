import Toolshed.Proofs.Grammar.Moving

namespace Toolshed

/-!
# The count of levels is balanced

A reader comes back at the depth at which it was called, whatever it answers. So
a level is left only if it was entered, and after a fault the whole limit is there
for what follows.
-/

open Parse (Steady)

namespace ParseState

variable {tokens : List Token} {state after : ParseState}

/-- The states that reading comes to: a reader moves on at its depth, or enters a level. -/
inductive Reached (tokens : List Token) : ParseState → Prop
  | start : Reached tokens (.start tokens)
  | onward {before after : ParseState} :
      Reached tokens before →
      before.Onward after →
      after.depth = before.depth →
      Reached tokens after
  | entered {before after : ParseState} :
      Reached tokens before →
      Parse.enter before = (some (), after) →
      Reached tokens after

/-- A level is entered only below the limit. -/
theorem enter_eq_some (isEntered : Parse.enter state = (some (), after)) :
    state.depth < maxNesting ∧ after = state.entered := by
  by_cases isDeep : maxNesting ≤ state.depth
  · rw [Parse.enter_of_deep isDeep] at isEntered
    cases isEntered
  · rw [Parse.enter_of_not_deep isDeep] at isEntered
    cases isEntered
    exact ⟨Nat.lt_of_not_le isDeep, rfl⟩

namespace Reached

variable (reached : state.Reached tokens)
include reached

/-- The limit is never exceeded. -/
theorem depth_le : state.depth ≤ maxNesting := by
  induction reached with
  | start => exact Nat.zero_le _
  | onward _ _ same ih => rwa [same]
  | entered _ isEntered _ =>
    obtain ⟨isBelow, rfl⟩ := enter_eq_some isEntered
    exact isBelow

theorem ready : state.Ready 0 := by
  induction reached with
  | start => exact ready_start tokens
  | onward _ onward _ ih => exact ih.onward onward
  | entered _ isEntered ih =>
    obtain ⟨_, rfl⟩ := enter_eq_some isEntered
    exact ⟨ih.finish, ih.items, ih.faults⟩

/-- A reader comes back at its depth. -/
theorem read {α : Type} (reader : Parse α)
    [steady : Steady false reader] :
    (reader state).2.depth = state.depth ∧ (reader state).2.Reached tokens :=
  have leads := steady.leads state
  ⟨leads.depth, reached.onward leads.onward leads.depth⟩

/-- A sign that carries an expression on is an item. -/
theorem isItem {sign : Symbol}
    (continues : state.continues sign = true) : state.rest ≠ [] := by
  intro isEnd
  simp [ParseState.continues, nextIs, kind, current] at continues
  have finish := reached.ready.finish
  simp_all

end Reached

end ParseState

namespace Grammar

open Parse ParseState

section Links

variable {α κ : Type} {tokens : List Token} {outer links : Nat} {before : NodeId}
variable {state : ParseState} {find : ParseState → Option κ} {link : κ → NodeId → Parse NodeId}

/--
One round of a loop, with the levels of `links` entered above the depth `outer`.
It finishes with levels that were all entered, or it passes an item and goes on
with one level more.
-/
def LinkRound
    (tokens : List Token)
    (find : ParseState → Option κ)
    (link : κ → NodeId → Parse NodeId)
    (finish : Nat → Option NodeId → Parse α)
    (outer links : Nat)
    (before : NodeId)
    (state : ParseState) : Prop :=
  (∃ levels last result,
    last.Reached tokens ∧ last.depth = outer + levels ∧
      ∀ fuel,
        linksUpTo find link finish (fuel + 1) links before state = finish levels result last) ∨
    ∃ node after,
      after.Reached tokens ∧ after.depth = outer + (links + 1) ∧
        after.rest.length < state.rest.length ∧
        ∀ fuel,
          linksUpTo find link finish (fuel + 1) links before state =
            linksUpTo find link finish fuel (links + 1) node after

/--
A loop over links goes by such rounds and finishes in the same way, and as many
rounds as there are items are enough.
-/
structure Balanced
    (tokens : List Token)
    (find : ParseState → Option κ)
    (link : κ → NodeId → Parse NodeId)
    (finish : Nat → Option NodeId → Parse α)
    (outer links : Nat)
    (before : NodeId)
    (state : ParseState) : Prop where
  round : LinkRound tokens find link finish outer links before state
  whole :
    ∀ fuel,
      ∃ levels last result,
        last.Reached tokens ∧ last.depth = outer + levels ∧
          linksUpTo find link finish fuel links before state = finish levels result last
  enough :
    ∀ fuel,
      state.rest.length ≤ fuel →
      linksUpTo find link finish (fuel + 1) links before state =
        linksUpTo find link finish fuel links before state

theorem linkRound_of_reached [∀ sort node, Steady true (link sort node)]
    (isItem : ∀ state sort, state.Reached tokens → find state = some sort → state.rest ≠ [])
    (finish : Nat → Option NodeId → Parse α) (reached : state.Reached tokens)
    (depth : state.depth = outer + links) :
    LinkRound tokens find link finish outer links before state := by
  cases finds : find state with
  | none => exact .inl ⟨links, state, _, reached, depth, fun _ => linksUpTo_of_none finds⟩
  | some sort =>
    by_cases isDeep : maxNesting ≤ state.depth
    · exact .inl ⟨links, _, _, reached.onward (onward_report state _ _) rfl, depth,
        fun _ => linksUpTo_of_deep finds isDeep⟩
    · have isReached := reached.entered (enter_of_not_deep isDeep)
      have deep : state.entered.depth = outer + (links + 1) := congrArg (· + 1) depth
      have steady : Steady true (link sort before) := inferInstance
      have leads := steady.leads state.entered
      obtain ⟨same, later⟩ := isReached.read (link sort before)
      rcases reads : link sort before state.entered with ⟨_ | node, after⟩ <;>
        rw [reads] at leads same later
      · exact .inl ⟨links + 1, after, _, later, same.trans deep,
          fun _ => linksUpTo_of_fails finds isDeep reads⟩
      · exact .inr ⟨node, after, later, same.trans deep,
          leads.shorter rfl (isItem state sort reached finds) (Option.some_ne_none _),
          fun _ => linksUpTo_of_reads finds isDeep reads⟩

theorem balanced_of_reached [∀ sort node, Steady true (link sort node)]
    (isItem : ∀ state sort, state.Reached tokens → find state = some sort → state.rest ≠ [])
    (finish : Nat → Option NodeId → Parse α) (reached : state.Reached tokens)
    (depth : state.depth = outer + links) :
    Balanced tokens find link finish outer links before state := by
  have rounds : ∀ links before state, state.Reached tokens → state.depth = outer + links →
      LinkRound tokens find link finish outer links before state :=
    fun _ _ _ => linkRound_of_reached isItem finish
  refine ⟨rounds _ _ _ reached depth, fun fuel => ?_, fun fuel enough => ?_⟩
  · induction fuel generalizing links before state with
    | zero => exact ⟨links, state, some before, reached, depth, rfl⟩
    | succ fuel ih =>
      rcases rounds links before state reached depth with
        ⟨levels, last, result, isReached, isDeep, shape⟩ |
          ⟨node, after, isReached, isDeep, -, shape⟩
      · exact ⟨levels, last, result, isReached, isDeep, shape fuel⟩
      · rw [shape]
        exact ih isReached isDeep
  · induction fuel generalizing links before state with
    | zero =>
      have isEnd := List.length_eq_zero_iff.mp (Nat.le_zero.mp enough)
      cases finds : find state with
      | none => exact linksUpTo_of_none finds
      | some sort => exact absurd isEnd (isItem state sort reached finds)
    | succ fuel ih =>
      rcases rounds links before state reached depth with
        ⟨_, _, _, -, -, shape⟩ | ⟨node, after, isReached, isDeep, shorter, shape⟩
      · rw [shape, shape]
      · rw [shape, shape]
        exact ih isReached isDeep (by omega)

end Links

variable {tokens : List Token}

theorem isItem_of_suffix? (state : ParseState) (isCall : Bool) (reached : state.Reached tokens)
    (finds : suffix? state = some isCall) : state.rest ≠ [] := by
  unfold suffix? at finds
  split at finds
  · exact reached.isItem ‹_›
  · split at finds
    · exact reached.isItem ‹_›
    · cases finds

theorem isItem_of_operator? {tier : Tier} (state : ParseState) (entry : Symbol × BinaryOp)
    (reached : state.Reached tokens) (finds : operator? tier state = some entry) :
    state.rest ≠ [] := by
  have continues := List.find?_some finds
  exact reached.isItem continues

/-- Every phrase that is read in a level of its own. -/
def nested (inner : Phrases) (start : Range) : List (Σ α : Type, Parse α) :=
  [⟨_, inner.tiers⟩, ⟨_, inner.unary⟩, ⟨_, inner.conditional⟩, ⟨_, functionType inner start⟩,
    ⟨_, statements inner.statement⟩, ⟨_, statements (classMember inner)⟩]

theorem steady_nested (inner : Phrases) [inner.Steady] (start : Range) :
    ∀ phrase ∈ nested inner start, Steady false phrase.2 := by
  simp only [nested, List.forall_mem_cons]
  and_intros
  all_goals first | infer_instance | nofun

end Grammar

open Grammar in
/--
The count of levels is balanced at every state that reading comes to. A reader
comes back at its depth, whatever it answers; a level is entered only below the
limit, and a phrase in it ends at the depth at which the level is left; and the
loops over operators, calls and member names finish with just the levels that
their links have entered. So no level is left that was not entered, and after a
fault all levels are there again.
-/
theorem SyntaxTree.parse_balanced (tokens : List Token) :
    (ParseState.start tokens).Reached tokens ∧
      ∀ state, state.Reached tokens →
        state.depth ≤ maxNesting ∧
        (Parse.enter state = Parse.refuse (fun _ => .tooDeep) state ∧ state.depth = maxNesting ∨
          Parse.enter state = (some (), state.entered) ∧ state.entered.Reached tokens) ∧
        ∀ levels, maxNesting ≤ state.depth + levels →
          ∀ kind start taken isCall operator tier tighter node before count,
            (∀ reader ∈ ⟨_, Grammar.sourceFile (.upTo levels)⟩ ::
                ⟨_, contentsUpTo (.upTo levels) count before⟩ :: ⟨_, recover count⟩ ::
                ⟨_, Parse.synchronise count⟩ ::
                readers (.upTo levels) kind start taken isCall operator tier tighter node before,
              (reader.2 state).2.depth = state.depth ∧ (reader.2 state).2.Reached tokens) ∧
            (∀ inside, Parse.enter state = (some (), inside) →
              levels ≠ 0 ∧
                ∀ phrase ∈ nested (.upTo levels) start,
                  let after := (phrase.2 inside).2
                  after.Reached tokens ∧ after.depth = state.depth + 1 ∧
                    (Parse.leave after).2.depth = state.depth) ∧
            ∀ outer links, state.depth = outer + links →
              Balanced tokens (operator? tier)
                  (fun entry => operation entry.2 (tiers (.upTo levels) tighter)) leaving
                  outer links node state ∧
                Balanced tokens suffix? (link (.upTo levels))
                  (fun links result => return (links, result)) outer links node state := by
  refine ⟨.start, fun state reached => ⟨reached.depth_le, ?_, fun levels enough => ?_⟩⟩
  · by_cases isDeep : maxNesting ≤ state.depth
    · exact .inl ⟨Parse.enter_of_deep isDeep, Nat.le_antisymm reached.depth_le isDeep⟩
    · have enters := Parse.enter_of_not_deep isDeep
      exact .inr ⟨enters, reached.entered enters⟩
  · intro kind start taken isCall operator tier tighter node before count
    refine ⟨?_, fun inside enters => ⟨?_, fun phrase member => ?_⟩, fun outer links depth => ?_⟩
    · simp only [List.forall_mem_cons]
      refine ⟨reached.read _, reached.read _, reached.read _, reached.read _, ?_⟩
      intro reader member
      have steady := steady_readers (.upTo levels) before kind start taken isCall operator tier
        tighter node reader member
      exact reached.read reader.2
    · obtain ⟨isBelow, -⟩ := ParseState.enter_eq_some enters
      omega
    · obtain ⟨-, rfl⟩ := ParseState.enter_eq_some enters
      have steady := steady_nested (.upTo levels) start phrase member
      obtain ⟨same, later⟩ := (reached.entered enters).read phrase.2
      exact ⟨later, same, Nat.sub_eq_of_eq_add same⟩
    · exact ⟨balanced_of_reached isItem_of_operator? _ reached depth,
        balanced_of_reached isItem_of_suffix? _ reached depth⟩

end Toolshed
