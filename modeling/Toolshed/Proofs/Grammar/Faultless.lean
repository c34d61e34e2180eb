import Toolshed.Proofs.Grammar.Language
import Toolshed.Proofs.Grammar.Levels
import Toolshed.Proofs.Syntax.Shown

namespace Toolshed

/-!
# Reading without a fault

A reader that meets a fault reports it for good. So a run that ends with no more
faults than it began with met none, and every item it passed was read for a
phrase.
-/

namespace ParseState

def faults (state : ParseState) : Nat :=
  state.diagnostics.length

/-- One state can come after another: nothing that was made or reported is lost. -/
structure Onward (before after : ParseState) : Prop where
  faults : before.faults ≤ after.faults
  within : before.arena.Within after.arena
  finish : after.finish = before.finish
  rest : after.rest <:+ before.rest

structure Ready (bound : Nat) (state : ParseState) : Prop where
  finish : state.finish.kind = .finish
  items : ∀ item ∈ state.rest, item.kind ≠ .finish
  faults : bound ≤ state.faults

variable {bound : Nat} {before middle after state : ParseState}

theorem Onward.refl (state : ParseState) : state.Onward state :=
  ⟨Nat.le_refl _, .refl _, rfl, List.suffix_rfl⟩

theorem Onward.trans (first : before.Onward middle) (second : middle.Onward after) :
    before.Onward after :=
  ⟨Nat.le_trans first.faults second.faults, first.within.trans second.within,
    second.finish.trans first.finish, second.rest.trans first.rest⟩

theorem Ready.onward (ready : before.Ready bound) (onward : before.Onward after) :
    after.Ready bound :=
  ⟨onward.finish ▸ ready.finish, fun item member => ready.items item (onward.rest.mem member),
    Nat.le_trans ready.faults onward.faults⟩

theorem onward_advance (state : ParseState) : state.Onward state.advance := by
  unfold advance
  split
  · exact .refl state
  · rename_i item rest found
    refine ⟨Nat.le_refl _, .refl _, rfl, ?_⟩
    rw [found]
    exact List.suffix_cons item rest

theorem onward_report (state : ParseState) (fault : Fault) (place : Place) :
    state.Onward (state.report fault place) :=
  ⟨by simp [faults, report], .refl _, rfl, List.suffix_rfl⟩

theorem suffix_skip (moved : Bool) (previous : Range) (items : List Item) :
    (skip moved previous items).2 <:+ items := by
  induction items generalizing moved previous with
  | nil => exact List.suffix_rfl
  | cons item rest ih =>
    unfold skip
    split
    · exact List.suffix_rfl
    · split
      · exact List.suffix_cons item rest
      · split
        · exact List.suffix_rfl
        · exact (ih true item.range).trans (List.suffix_cons item rest)

theorem onward_synchronise (state : ParseState) (count : Nat) :
    state.Onward (state.synchronise count) :=
  ⟨Nat.le_refl _, .refl _, rfl, suffix_skip _ _ _⟩

theorem Ready.lt_report (ready : state.Ready bound) (fault : Fault) (place : Place) :
    bound < (state.report fault place).faults := by
  have smaller := ready.faults
  simp only [ParseState.faults, report, List.length_append, List.length_singleton] at smaller ⊢
  omega

theorem Ready.rest_eq (ready : state.Ready bound) (isItem : state.kind ≠ .finish) :
    state.rest = state.current :: state.advance.rest := by
  cases found : state.rest with
  | nil => simp [kind, current, found, ready.finish] at isItem
  | cons item rest => simp [current, advance, found]

theorem Ready.rest_eq_of_kind {sort : TokenKind} (ready : state.Ready bound)
    (isSort : state.kind = sort) (isItem : sort ≠ .finish) :
    state.rest = state.current :: state.advance.rest :=
  ready.rest_eq (isSort ▸ isItem)

end ParseState

namespace Parse

open ParseState

variable {bound : Nat} {known : Arena → Prop} {state : ParseState} {α β : Type}

/--
A run of a reader. If it ends with no more than `bound` faults, and if what is
`known` holds of every store from here on, it answers a value, and a condition
on the value, on the items that are left and on every store from there on holds.
-/
structure Runs
    (bound : Nat)
    (known : Arena → Prop)
    (state : ParseState)
    (reader : Parse α)
    (condition : α → List Item → Arena → Prop) : Prop where
  onward : state.Onward (reader state).2
  answers :
    (reader state).2.faults ≤ bound →
    (∀ arena, state.arena.Within arena → known arena) →
    ∃ value, (reader state).1 = some value ∧
      ∀ arena, (reader state).2.arena.Within arena → condition value (reader state).2.rest arena

namespace Runs

variable {condition : β → List Item → Arena → Prop}
variable {reader phrase : Parse β} {kind : TokenKind} {γ : Type} {slack : Nat} {node : Node}
variable {read : Arena → Nat → NodeId → γ} {spelled : γ → List Item → Prop}

theorem pure {value : β} (holds : ∀ arena, known arena → condition value state.rest arena) :
    Runs bound known state (Pure.pure value) condition :=
  ⟨.refl state, fun _ knows => ⟨value, rfl, fun arena within => holds arena (knows arena within)⟩⟩

theorem pure_bind {value : α} {next : α → Parse β}
    (runs : Runs bound known state (next value) condition) :
    Runs bound known state (Pure.pure value >>= next) condition :=
  runs

theorem bind {reader : Parse α} {next : α → Parse β} {between : α → List Item → Arena → Prop}
    (ready : state.Ready bound) (first : Runs bound known state reader between)
    (second :
      ∀ value after,
        after.Ready bound →
        Runs bound (fun arena => known arena ∧ between value after.rest arena) after (next value)
          condition) : Runs bound known state (reader >>= next) condition := by
  cases result : reader state with
  | mk answer after =>
    have onward := first.onward
    have answers := first.answers
    rw [result] at onward answers
    cases answer with
    | none =>
      have shape := bind_none next result
      refine ⟨by rwa [shape], fun quiet knows => ?_⟩
      rw [shape] at quiet
      obtain ⟨value, impossible, _⟩ := answers quiet knows
      simp at impossible
    | some value =>
      have shape := bind_some next result
      have later := second value after (ready.onward onward)
      refine ⟨by rw [shape]; exact onward.trans later.onward, fun quiet knows => ?_⟩
      rw [shape] at quiet ⊢
      refine later.answers quiet fun arena within => ?_
      -- A run that ends without a new fault has none in the middle.
      obtain ⟨found, same, holds⟩ := answers (Nat.le_trans later.onward.faults quiet) knows
      obtain rfl : value = found := Option.some.inj same
      exact ⟨knows arena (onward.within.trans within), holds arena within⟩

theorem ask {question : ParseState → α} {next : α → Parse β}
    (runs : Runs bound known state (next (question state)) condition) :
    Runs bound known state (Parse.ask question >>= next) condition :=
  ⟨runs.onward, runs.answers⟩

theorem branch {decision : Prop} [Decidable decision] {whenTrue whenFalse : Parse β}
    (first : Runs bound known state whenTrue condition)
    (second : Runs bound known state whenFalse condition) :
    Runs bound known state (if decision then whenTrue else whenFalse) condition := by
  split
  · exact first
  · exact second

theorem imp {stronger : β → List Item → Arena → Prop}
    (runs : Runs bound known state reader stronger)
    (implies :
      ∀ value rest arena,
        known arena →
        stronger value rest arena →
        condition value rest arena) : Runs bound known state reader condition := by
  refine ⟨runs.onward, fun quiet knows => ?_⟩
  obtain ⟨value, answered, holds⟩ := runs.answers quiet knows
  refine ⟨value, answered, fun arena within => ?_⟩
  exact implies value _ arena (knows arena (runs.onward.within.trans within)) (holds arena within)

theorem of_fault {fault : Fault} {place : Place} (ready : state.Ready bound)
    (reports : (reader state).2 = state.report fault place) :
    Runs bound known state reader condition := by
  refine ⟨reports ▸ onward_report state fault place, fun quiet _ => ?_⟩
  rw [reports] at quiet
  exact absurd quiet (Nat.not_le.mpr (ready.lt_report fault place))

theorem refuse (ready : state.Ready bound) (fault : TokenKind → Fault) :
    Runs bound known state (Parse.refuse fault) condition :=
  of_fault ready rfl

theorem deeper (ready : state.Ready bound)
    (runs :
      ∀ depth,
        ({ state with depth := depth } : ParseState).Ready bound →
        Runs bound known { state with depth := depth } phrase condition) :
    Runs bound known state (Parse.deeper phrase) condition := by
  have inside := runs (state.depth + 1) ⟨ready.finish, ready.items, ready.faults⟩
  by_cases isDeep : maxNesting ≤ state.depth
  · exact of_fault ready (by rw [deeper_of_deep _ isDeep]; rfl)
  · refine ⟨?_, ?_⟩
    · rw [deeper_of_not_deep _ isDeep]
      exact ⟨inside.onward.faults, inside.onward.within, inside.onward.finish, inside.onward.rest⟩
    · rw [deeper_of_not_deep _ isDeep]
      exact inside.answers

theorem attempt (runs : Runs bound known state phrase condition) :
    Runs bound known state (Parse.attempt phrase) fun answer rest arena =>
      ∃ value, answer = some value ∧ condition value rest arena := by
  refine ⟨runs.onward, fun quiet knows => ?_⟩
  obtain ⟨value, answered, holds⟩ := runs.answers quiet knows
  exact ⟨_, rfl, fun arena within => ⟨value, answered, holds arena within⟩⟩

theorem synchronise (count : Nat) :
    Runs bound known state (Parse.synchronise count) fun _ _ _ => True :=
  ⟨onward_synchronise state count, fun _ _ => ⟨(), rfl, fun _ _ => trivial⟩⟩

section

variable (ready : state.Ready bound)
include ready

theorem note (fault : Fault) (node : NodeId) :
    Runs bound known state (Parse.note fault node) fun _ _ _ => False :=
  of_fault ready rfl

theorem next (isItem : ∀ arena, known arena → state.kind ≠ .finish) :
    Runs bound known state Parse.next fun token rest _ =>
      token = state.current.token ∧ state.rest = state.current :: rest := by
  refine ⟨onward_advance state, fun _ knows => ⟨_, rfl, fun _ _ => ⟨rfl, ?_⟩⟩⟩
  exact ready.rest_eq (isItem state.arena (knows _ (.refl _)))

theorem next_shorter {rest : Token → Parse β}
    (isItem : state.kind ≠ .finish)
    (second :
      ∀ after,
        after.Ready bound →
        Runs bound (fun arena => known arena ∧ state.rest = state.current :: after.rest) after
          (rest state.current.token) condition) :
    Runs bound known state (Parse.next >>= rest) fun value left arena =>
      condition value left arena ∧ left.length < state.rest.length := by
  have onward := onward_advance state
  have split := ready.rest_eq isItem
  have later := second state.advance (ready.onward onward)
  refine ⟨onward.trans later.onward, fun quiet knows => ?_⟩
  obtain ⟨value, answered, holds⟩ :=
    later.answers quiet fun arena within => ⟨knows arena (onward.within.trans within), split⟩
  refine ⟨value, answered, fun arena within => ⟨holds arena within, ?_⟩⟩
  have shorter := later.onward.rest.length_le
  rw [split]
  exact Nat.lt_succ_of_le shorter

theorem expect (isItem : (kind != .finish) = true) :
    Runs bound known state (Parse.expect kind) fun _ rest _ =>
      state.kind = kind ∧ state.rest = state.current :: rest := by
  by_cases isKind : state.kind = kind
  · have shape : Parse.expect kind state = (some (), state.advance) := by
      simp [Parse.expect, nextIs, isKind]
    refine ⟨by rw [shape]; exact onward_advance state, fun _ _ => ?_⟩
    rw [shape]
    exact ⟨(), rfl, fun _ _ => ⟨isKind, ready.rest_eq_of_kind isKind (by simpa using isItem)⟩⟩
  · have refuses : (Parse.expect kind state).2 =
        (Parse.refuse (.expectedToken kind) state : Option Unit × ParseState).2 := by
      simp [Parse.expect, nextIs, isKind]
    exact of_fault ready refuses

theorem name :
    Runs bound known state Parse.name fun found rest _ =>
      state.kind = .identifier ∧ found = state.current.text ∧
        state.rest = state.current :: rest := by
  by_cases isName : state.kind = .identifier
  · have shape : Parse.name state = (some state.current.text, state.advance) := by
      simp [Parse.name, nextIs, isName, Item.text]
    refine ⟨by rw [shape]; exact onward_advance state, fun _ _ => ?_⟩
    rw [shape]
    exact ⟨_, rfl, fun _ _ => ⟨isName, rfl, ready.rest_eq_of_kind isName (by decide)⟩⟩
  · have refuses : (Parse.name state).2 =
        (Parse.refuse .expectedIdentifier state : Option String × ParseState).2 := by
      simp [Parse.name, nextIs, isName]
    exact of_fault ready refuses

theorem eat {rest : Bool → Parse β} (isItem : kind ≠ .finish)
    (found :
      ∀ after,
        after.Ready bound →
        Runs bound
          (fun arena => known arena ∧ state.kind = kind ∧ state.rest = state.current :: after.rest)
          after (rest true) condition)
    (missing : state.kind ≠ kind → Runs bound known state (rest false) condition) :
    Runs bound known state (Parse.eat kind >>= rest) condition := by
  by_cases isKind : state.kind = kind
  · have onward := onward_advance state
    have later := found state.advance (ready.onward onward)
    have shape : (Parse.eat kind >>= rest) state = rest true state.advance := by
      simp [Bind.bind, Parse.eat, nextIs, isKind]
    refine ⟨by rw [shape]; exact onward.trans later.onward, fun quiet knows => ?_⟩
    rw [shape] at quiet ⊢
    exact later.answers quiet fun arena within =>
      ⟨knows arena (onward.within.trans within), isKind, ready.rest_eq_of_kind isKind isItem⟩
  · have shape : (Parse.eat kind >>= rest) state = rest false state := by
      simp [Bind.bind, Parse.eat, nextIs, isKind]
    have runs := missing isKind
    exact ⟨by rw [shape]; exact runs.onward, by rw [shape]; exact runs.answers⟩

theorem terminator :
    Runs bound known state Parse.terminator fun _ rest _ => Terminated state.rest rest := by
  by_cases isSemicolon : state.kind = .symbol .semicolon
  · have shape : Parse.terminator state = (some (), state.advance) := by
      simp [Parse.terminator, nextIs, isSemicolon]
    refine ⟨by rw [shape]; exact onward_advance state, fun _ _ => ?_⟩
    rw [shape, ready.rest_eq_of_kind isSemicolon (by decide)]
    exact ⟨(), rfl, fun _ _ => .semicolon isSemicolon⟩
  · by_cases isEnd : (state.nextIs (.symbol .rightBrace) || state.atFinish ||
        state.current.fresh) = true
    · have shape : Parse.terminator state = (some (), state) := by
        simp only [Parse.terminator, nextIs, isSemicolon]
        exact if_pos isEnd
      refine ⟨by rw [shape]; exact .refl state, fun _ _ => ?_⟩
      rw [shape]
      refine ⟨(), rfl, fun _ _ => ?_⟩
      cases items : state.rest with
      | nil => exact .finish
      | cons item rest =>
        have notFinish := ready.items item (by simp [items])
        simp only [nextIs, atFinish, kind, current, items, List.headD_cons, Bool.or_eq_true,
          decide_eq_true_eq, notFinish, or_false] at isEnd
        rcases isEnd with isBrace | isFresh
        · exact .closingBrace isBrace
        · exact .lineBreak isFresh
    · have refuses : (Parse.terminator state).2 =
          (Parse.refuse .expectedTerminator state : Option Unit × ParseState).2 := by
        simp only [Parse.terminator, nextIs, isSemicolon]
        exact congrArg Prod.snd (if_neg isEnd)
      exact of_fault ready refuses

end

theorem make {range : Range}
    (holds :
      known state.arena →
      ∃ tree, spelled tree state.rest ∧
        (state.arena.add node range).Shows read slack state.arena.next tree) :
    Runs bound known state (Parse.make node range) fun id rest arena =>
      ∃ tree, spelled tree rest ∧ arena.Shows read slack id tree := by
  refine ⟨⟨Nat.le_refl _, Arena.within_add _ node range, rfl, List.suffix_rfl⟩, fun _ knows => ?_⟩
  refine ⟨_, rfl, fun arena within => ?_⟩
  obtain ⟨tree, spelled, shows⟩ := holds (knows _ (.refl _))
  exact ⟨tree, spelled, shows.mono within⟩

theorem makeFrom {start : Range}
    (holds :
      known state.arena →
      ∃ tree, spelled tree state.rest ∧
        (state.arena.add node (state.rangeFrom start)).Shows read slack state.arena.next tree) :
    Runs bound known state (Parse.makeFrom start node) fun id rest arena =>
      ∃ tree, spelled tree rest ∧ arena.Shows read slack id tree := by
  have runs : Runs bound known state (Parse.make node (state.rangeFrom start)) _ := make holds
  exact ⟨runs.onward, runs.answers⟩

end Runs

/-- A reader of a phrase: without a fault, the items that it reads spell what it makes. -/
def Spells
    {γ : Type}
    (spelled : List Item → γ → List Item → Prop)
    (read : Arena → Nat → NodeId → γ)
    (slack : Nat)
    (reader : Parse NodeId) : Prop :=
  ∀ bound known state, state.Ready bound →
    Runs bound known state reader fun id rest arena =>
      ∃ tree, spelled state.rest tree rest ∧ arena.Shows read slack id tree

def SpellsAt
    {γ : Type}
    (kinds : List TokenKind)
    (spelled : List Item → γ → List Item → Prop)
    (read : Arena → Nat → NodeId → γ)
    (slack : Nat)
    (reader : Parse NodeId) : Prop :=
  ∀ bound known state, state.Ready bound → state.kind ∈ kinds →
    Runs bound known state reader fun id rest arena =>
      (∃ tree, spelled state.rest tree rest ∧ arena.Shows read slack id tree) ∧
        rest.length < state.rest.length

/-- After an expression that is spelled, a reader answers one that is spelled from there on. -/
def Extends
    (starts : ParseState → Prop)
    (spelled : List Item → Expression → List Item → Prop)
    (reader : NodeId → Parse NodeId) : Prop :=
  ∀ bound known state subject items, state.Ready bound → starts state →
    (∀ arena, known arena →
      ∃ tree, spelled items tree state.rest ∧ arena.ShowsExpression subject tree) →
    Runs bound known state (reader subject) fun id rest arena =>
      ∃ tree, spelled items tree rest ∧ arena.ShowsExpression id tree

theorem Spells.separatedUpTo {γ : Type} {single : List Item → γ → List Item → Prop}
    {all : List Item → List γ → List Item → Prop} {read : Arena → Nat → NodeId → γ} {slack : Nat}
    {phrase : Parse NodeId} (spells : Spells single read slack phrase)
    (last : ∀ {items tree rest}, single items tree rest → all items [tree] rest)
    (more :
      ∀ {items comma others rest tree trees},
        single items tree (comma :: others) →
        comma.kind = .symbol .comma →
        all others trees rest →
        all items (tree :: trees) rest) (fuel : Nat) (ready : state.Ready bound) :
    Runs bound known state (separatedUpTo phrase fuel) fun ids rest arena =>
      ∃ trees, all state.rest trees rest ∧ List.Forall₂ (arena.Shows read slack) ids trees := by
  induction fuel generalizing state known with
  | zero =>
    refine .bind ready (spells bound known state ready) fun only after _ => ?_
    refine .pure fun arena ⟨_, tree, spelled, shows⟩ => ?_
    exact ⟨[tree], last spelled, .cons shows .nil⟩
  | succ fuel ih =>
    refine .bind ready (spells bound known state ready) fun first after ready => ?_
    refine .eat ready (by decide) (fun others ready => ?_) fun _ => ?_
    · refine .bind ready (ih ready) fun ids final _ => ?_
      refine .pure ?_
      rintro arena ⟨⟨⟨_, tree, spelled, shows⟩, isComma, items⟩, trees, spelledAll, showsAll⟩
      rw [items] at spelled
      exact ⟨tree :: trees, more spelled isComma spelledAll, .cons shows showsAll⟩
    · refine .pure fun arena ⟨_, tree, spelled, shows⟩ => ?_
      exact ⟨[tree], last spelled, .cons shows .nil⟩

theorem Spells.separated {γ : Type} {single : List Item → γ → List Item → Prop}
    {all : List Item → List γ → List Item → Prop} {read : Arena → Nat → NodeId → γ} {slack : Nat}
    {phrase : Parse NodeId} (spells : Spells single read slack phrase)
    (last : ∀ {items tree rest}, single items tree rest → all items [tree] rest)
    (more :
      ∀ {items comma others rest tree trees},
        single items tree (comma :: others) →
        comma.kind = .symbol .comma →
        all others trees rest →
        all items (tree :: trees) rest) (ready : state.Ready bound) :
    Runs bound known state (Parse.separated phrase) fun ids rest arena =>
      ∃ trees, all state.rest trees rest ∧ List.Forall₂ (arena.Shows read slack) ids trees := by
  have runs := @Spells.separatedUpTo bound known state _ single all _ _ _ spells last more
    state.rest.length ready
  exact ⟨runs.onward, runs.answers⟩

end Parse

end Toolshed
