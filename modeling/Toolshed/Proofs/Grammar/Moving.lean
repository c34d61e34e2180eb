import Toolshed.Proofs.Grammar.Proper
import Toolshed.Proofs.Grammar.SourceFile

namespace Toolshed

/-!
# Reading moves on

No reader goes back or loses its level, and one that gives up says why. A reader
that is eager passes an item when it answers something. So every round of a loop
passes an item, and nothing is left out of a tree without a diagnostic.
-/

namespace Parse

open ParseState

variable {α β : Type} {eager : Bool} {reader : Parse α} {following : α → Parse β}

/-- A reader goes on and keeps its level, and it reports a fault if it answers nothing. -/
structure Leads (eager : Bool) (state : ParseState) (result : Option α × ParseState) : Prop where
  onward : state.Onward result.2
  depth : result.2.depth = state.depth
  reports : result.1 = none → state.faults < result.2.faults
  shorter : eager → state.rest ≠ [] → result.1 ≠ none → result.2.rest.length < state.rest.length

class Steady (eager : Bool) (reader : Parse α) : Prop where
  leads : ∀ state, Leads eager state (reader state)

theorem leads_refl (state : ParseState) (value : α) : Leads false state (some value, state) :=
  ⟨.refl state, rfl, nofun, nofun⟩

theorem leads_advance (state : ParseState) (value : α) :
    Leads eager state (some value, state.advance) := by
  refine ⟨onward_advance state, ?_, nofun, fun _ isItem _ => ?_⟩
  · unfold advance
    split <;> rfl
  · obtain ⟨item, rest, items⟩ := List.exists_cons_of_ne_nil isItem
    simp [advance, items]

theorem faults_report (state : ParseState) (fault : Fault) (place : Place) :
    state.faults < (state.report fault place).faults := by
  simp [faults, report]

theorem leads_report (state : ParseState) (fault : Fault) (place : Place) :
    Leads eager state ((none : Option α), state.report fault place) :=
  ⟨onward_report state fault place, rfl, fun _ => faults_report state fault place,
    fun _ _ answered => absurd rfl answered⟩

namespace Steady

instance (priority := low) [eager : Steady true reader] : Steady false reader :=
  ⟨fun state =>
    have leads := eager.leads state
    ⟨leads.onward, leads.depth, leads.reports, nofun⟩⟩

instance (value : α) : Steady false (pure value : Parse α) :=
  ⟨fun state => leads_refl state value⟩

instance (question : ParseState → α) : Steady false (ask question) :=
  ⟨fun state => leads_refl state _⟩

instance : Steady false here :=
  inferInstanceAs (Steady false (ask _))

instance (node : NodeId) : Steady false (Grammar.rangeOf node) :=
  inferInstanceAs (Steady false (ask _))

instance (fault : TokenKind → Fault) : Steady eager (refuse fault : Parse α) :=
  ⟨fun state => leads_report state _ _⟩

instance (fault : Fault) (place : Place) :
    Steady eager ((fun state => (none, state.report fault place)) : Parse α) :=
  ⟨fun state => leads_report state _ _⟩

instance (fault : Fault) (node : NodeId) : Steady false (note fault node) :=
  ⟨fun state => ⟨onward_report state _ _, rfl, nofun, nofun⟩⟩

instance : Steady true next :=
  ⟨fun state => leads_advance state _⟩

instance (kind : TokenKind) : Steady false (eat kind) := by
  refine ⟨fun state => ?_⟩
  unfold eat
  split <;> [exact leads_advance state _; exact leads_refl state _]

instance (kind : TokenKind) : Steady true (expect kind) := by
  refine ⟨fun state => ?_⟩
  unfold expect
  split <;> [exact leads_advance state _; exact leads_report state _ _]

instance : Steady true name := by
  refine ⟨fun state => ?_⟩
  unfold name
  split <;> [exact leads_advance state _; exact leads_report state _ _]

instance : Steady false terminator := by
  refine ⟨fun state => ?_⟩
  unfold terminator
  split
  · exact leads_advance state _
  · split <;> [exact leads_refl state _; exact leads_report state _ _]

instance (node : Node) (range : Range) : Steady false (make node range) :=
  ⟨fun _ => ⟨⟨Nat.le_refl _, Arena.within_add _ node range, rfl, List.suffix_rfl⟩, rfl, nofun,
    nofun⟩⟩

instance (start : Range) (node : Node) : Steady false (makeFrom start node) :=
  ⟨fun state => (inferInstance : Steady false (make node _)).leads state⟩

/-- Of two readers in a row, it is enough that one is eager. -/
theorem sequence {left right : Bool} (first : Steady left reader)
    (second : ∀ value, Steady right (following value)) :
    Steady (left || right) (reader >>= following) := by
  refine ⟨fun state => ?_⟩
  have leads := first.leads state
  rcases result : reader state with ⟨_ | value, middle⟩ <;> rw [result] at leads
  · have shape : (reader >>= following) state = (none, middle) := by simp [Bind.bind, result]
    rw [shape]
    exact ⟨leads.onward, leads.depth, fun _ => leads.reports rfl, fun _ _ => absurd rfl⟩
  · have shape : (reader >>= following) state = following value middle := by
      simp [Bind.bind, result]
    rw [shape]
    have later := (second value).leads middle
    refine ⟨leads.onward.trans later.onward, later.depth.trans leads.depth,
      fun nothing => Nat.lt_of_le_of_lt leads.onward.faults (later.reports nothing),
      fun isEager isItem answered => ?_⟩
    have before : middle.rest.length ≤ state.rest.length := leads.onward.rest.length_le
    have after := later.onward.rest.length_le
    have isLong := List.length_pos_iff.mpr isItem
    rcases Bool.or_eq_true_iff.mp isEager with isEager | isEager
    · have shorter : middle.rest.length < state.rest.length := leads.shorter isEager isItem nofun
      omega
    · -- If nothing is left for the second reader, the first one has passed all items.
      by_cases isEnd : middle.rest = []
      · simp only [isEnd, List.length_nil] at after
        omega
      · have shorter := later.shorter isEager isEnd answered
        omega

instance bind [first : Steady eager reader] [second : ∀ value, Steady false (following value)] :
    Steady eager (reader >>= following) :=
  Bool.or_false eager ▸ sequence first second

theorem after [first : Steady false reader] (second : ∀ value, Steady eager (following value)) :
    Steady eager (reader >>= following) :=
  sequence first second

instance [Steady false reader] [∀ value, Steady eager (following value)] :
    Steady eager (reader >>= following) :=
  after inferInstance

instance (decision : Prop) [Decidable decision] (left right : Parse α) [Steady eager left]
    [Steady eager right] : Steady eager (if decision then left else right) := by
  split <;> assumption

instance (phrase : Parse α) [inside : Steady eager phrase] : Steady eager (deeper phrase) := by
  refine ⟨fun state => ?_⟩
  by_cases isDeep : maxNesting ≤ state.depth
  · rw [deeper_of_deep _ isDeep]
    exact leads_report state _ _
  · rw [deeper_of_not_deep _ isDeep]
    obtain ⟨⟨faults, within, finish, rest⟩, depth, reports, shorter⟩ := inside.leads state.entered
    exact ⟨⟨faults, within, finish, rest⟩, Nat.sub_eq_of_eq_add depth, reports, shorter⟩

instance (phrase : Parse α) [inside : Steady false phrase] : Steady false (attempt phrase) :=
  ⟨fun state => ⟨(inside.leads state).onward, (inside.leads state).depth, nofun, nofun⟩⟩

instance (before : Nat) : Steady false (synchronise before) :=
  ⟨fun state => ⟨onward_synchronise state before, rfl, nofun, nofun⟩⟩

instance separatedUpTo (phrase : Parse α) [Steady false phrase] (fuel : Nat) :
    Steady false (Parse.separatedUpTo phrase fuel) := by
  induction fuel <;> unfold Parse.separatedUpTo <;> infer_instance

instance (phrase : Parse α) [Steady false phrase] : Steady false (separated phrase) :=
  ⟨fun state => (separatedUpTo phrase _).leads state⟩

end Steady

end Parse

open Parse (Steady)

class Phrases.Steady (inner : Phrases) : Prop where
  tiers : Parse.Steady true inner.tiers
  unary : Parse.Steady true inner.unary
  expression : Parse.Steady true inner.expression
  ascription : Parse.Steady true inner.ascription
  statement : Parse.Steady true inner.statement
  conditional : Parse.Steady true inner.conditional
  declaration : Parse.Steady true inner.declaration

attribute [instance] Phrases.Steady.tiers Phrases.Steady.unary Phrases.Steady.expression
  Phrases.Steady.ascription Phrases.Steady.statement Phrases.Steady.conditional
  Phrases.Steady.declaration

namespace Grammar

open Parse

section Steady

instance steady_pathSegmentsUpTo (fuel : Nat) : Steady false (pathSegmentsUpTo fuel) := by
  induction fuel <;> unfold pathSegmentsUpTo <;> infer_instance

instance : Steady true importDeclaration := by
  refine .after fun start => @Steady.bind _ _ _ _ _ _ fun word => ?_
  refine .after fun first => .after fun left => ?_
  infer_instance

variable (inner : Phrases) [inner.Steady]

instance (start : Range) : Steady false (functionType inner start) := by
  unfold functionType
  infer_instance

instance : Steady true (ascription inner) := by
  refine .after fun start => .after fun kind => ?_
  split
  · infer_instance
  · exact inferInstanceAs (Steady true (next >>= fun _ => deeper (functionType inner start)))
  · infer_instance

instance (taken : List String) : Steady true (parameter inner taken) := by
  unfold parameter
  infer_instance

instance steady_parametersUpTo (fuel : Nat) (taken : List String) :
    Steady true (parametersUpTo inner fuel taken) := by
  induction fuel generalizing taken <;> unfold parametersUpTo <;> infer_instance

instance : Steady true (parameters inner) := by
  unfold parameters
  infer_instance

instance : Steady false (optionalAscription inner) := by
  unfold optionalAscription
  infer_instance

instance steady_statementsUpTo (statement : Parse NodeId) [Steady false statement] (fuel : Nat) :
    Steady false (statementsUpTo statement fuel) := by
  induction fuel with
  | zero => unfold statementsUpTo; infer_instance
  | succ fuel ih =>
    have later : ∀ (before : Nat) (answer : Option NodeId), Steady false (match answer with
        | some node => do
          let others ← statementsUpTo statement fuel
          return node :: others
        | none => do
          Parse.synchronise before
          statementsUpTo statement fuel) := by
      intro before answer
      cases answer <;> infer_instance
    unfold statementsUpTo
    infer_instance

instance (statement : Parse NodeId) [Steady false statement] :
    Steady false (statements statement) := by
  unfold statements
  infer_instance

instance : Steady true (block inner) := by
  unfold block
  simp only [deeper_statements]
  infer_instance

instance : Steady true (expression inner) :=
  inferInstanceAs (Steady true (deeper inner.tiers))

instance : Steady true (lambda inner) := by
  unfold lambda
  infer_instance

instance : Steady true numberLiteral := by
  refine @Steady.bind _ _ _ _ _ _ fun token => ?_
  dsimp only
  split <;> infer_instance

instance : Steady true (parenthesised inner) := by
  unfold parenthesised
  infer_instance

instance : Steady true (primary inner) := by
  refine .after fun start => .after fun kind => ?_
  split <;> infer_instance

instance : Steady true (arguments inner) := by
  unfold arguments
  infer_instance

instance (isCall : Bool) (subject : NodeId) : Steady true (link inner isCall subject) := by
  unfold link
  infer_instance

instance steady_linked {κ : Type} (find : ParseState → Option κ)
    (link : κ → NodeId → Parse NodeId) [∀ sort node, Steady true (link sort node)]
    (fuel : Nat) (before : NodeId) : Steady false (linked find link fuel before) := by
  induction fuel generalizing before with
  | zero => exact inferInstanceAs (Steady false (pure before))
  | succ fuel ih =>
    rw [linked_succ]
    refine .after fun found => ?_
    cases found <;> infer_instance

instance (subject : NodeId) : Steady false (suffixes inner subject) := by
  rw [suffixes_eq]
  infer_instance

instance : Steady true (unary inner) := by
  refine .after fun kind => ?_
  split
  · simp only [deeper_bind]
    infer_instance
  · infer_instance

instance (operator : BinaryOp) (operand : Parse NodeId) [Steady true operand] (left : NodeId) :
    Steady true (operation operator operand left) := by
  unfold operation
  infer_instance

instance (tier : Tier) (operand : Parse NodeId) [Steady true operand] (left : NodeId) :
    Steady false (operators tier operand left) := by
  rw [operators_eq]
  infer_instance

instance steady_tiers (all : List Tier) : Steady true (tiers inner all) := by
  induction all <;> unfold tiers <;> infer_instance

instance : Steady true (letDeclaration inner) := by
  unfold letDeclaration
  infer_instance

instance : Steady true (funDeclaration inner) := by
  unfold funDeclaration
  infer_instance

instance : Steady true (declaration inner) := by
  unfold declaration
  infer_instance

instance : Steady true (returnStatement inner) := by
  refine .after fun start => @Steady.bind _ _ _ _ _ _ fun word => ?_
  infer_instance

instance : Steady false (elseBranch inner) := by
  unfold elseBranch
  simp only [deeper_bind]
  infer_instance

instance : Steady true (conditional inner) := by
  unfold conditional
  infer_instance

instance : Steady true (loop inner) := by
  unfold loop
  infer_instance

instance : Steady true (assignment inner) := by
  unfold assignment
  infer_instance

instance : Steady true (expressionStatement inner) := by
  refine @Steady.bind _ _ _ _ _ _ fun found => .after fun isTarget => ?_
  cases isTarget with
  | true => exact ⟨fun state => leads_report state _ _⟩
  | false => exact inferInstanceAs (Steady false (rangeOf found >>= _))

instance : Steady true (statement inner) := by
  refine .after fun next => ?_
  dsimp only
  split <;> infer_instance

instance : Steady true (classMember inner) := by
  refine .after fun kind => ?_
  split <;> infer_instance

instance : Steady true (classDeclaration inner) := by
  unfold classDeclaration
  simp only [deeper_statements]
  infer_instance

instance (before : Contents) : Steady true (topLevel inner before) := by
  refine .after fun kind => ?_
  split <;> infer_instance

instance (before : Nat) : Steady false (recover before) := by
  unfold recover
  infer_instance

instance steady_contentsUpTo (fuel : Nat) (before : Contents) :
    Steady false (contentsUpTo inner fuel before) := by
  induction fuel generalizing before with
  | zero =>
    unfold contentsUpTo
    infer_instance
  | succ fuel ih =>
    have later : ∀ left (answer : Option Contents), Steady false (match answer with
        | some after => contentsUpTo inner fuel after
        | none => do
          recover left
          contentsUpTo inner fuel before) := by
      intro left answer
      cases answer <;> infer_instance
    unfold contentsUpTo
    infer_instance

instance : Steady false (sourceFile inner) := by
  unfold sourceFile
  infer_instance

end Steady

end Grammar

instance Phrases.steady_upTo (levels : Nat) : (Phrases.upTo levels).Steady := by
  induction levels with
  | zero =>
    have refuses {eager : Bool} : Parse.Steady eager (.refuse fun _ => .tooDeep : Parse NodeId) :=
      inferInstance
    constructor <;> exact refuses
  | succ levels ih =>
    unfold upTo above
    constructor <;> dsimp only <;> infer_instance

namespace ParseState

/-- No item is left, or the next one closes a block. -/
def Closes (state : ParseState) : Prop :=
  state.rest = [] ∨ state.kind = .symbol .rightBrace

theorem Onward.kind_eq {before after : ParseState} (onward : before.Onward after)
    (same : after.rest = before.rest) : after.kind = before.kind := by
  simp [kind, current, same, onward.finish]

/-- Recovery passes an item, or leaves all where a closing brace or the end is. -/
theorem synchronise_moves {state : ParseState} {before : Nat}
    (later : state.rest.length ≤ before) :
    (state.synchronise before).rest.length < before ∨
      (state.synchronise before).rest = state.rest ∧ state.Closes := by
  rcases Nat.lt_or_eq_of_le later with moved | same
  · exact .inl (Nat.lt_of_le_of_lt (suffix_skip _ _ _).length_le moved)
  · cases items : state.rest with
    | nil => exact .inr ⟨by simp [synchronise, items, skip], .inl items⟩
    | cons item rest =>
      by_cases isBrace : item.kind = .symbol .rightBrace
      · refine .inr ⟨?_, .inr ?_⟩
        · simp [synchronise, items, skip, isBrace]
        · simp [kind, current, items, isBrace]
      · left
        have short : (skip false state.previous (item :: rest)).2.length ≤ rest.length := by
          simp only [skip, isBrace, if_false]
          split
          · exact Nat.le_refl _
          · exact (suffix_skip _ _ _).length_le
        simp [synchronise, ← same, items]
        omega

end ParseState

namespace Grammar

open Parse ParseState

variable {state : ParseState} {item : Parse NodeId} [steady : Steady true item]
variable {middle : ParseState}

theorem atFinish_iff (ready : state.Ready 0) : state.atFinish = true ↔ state.rest = [] := by
  cases items : state.rest with
  | nil => simp [atFinish, kind, current, items, ready.finish]
  | cons first rest => simp [atFinish, kind, current, items, ready.items first]

theorem synchronise_shorter (onward : state.Onward middle) (isOpen : ¬state.Closes) :
    (middle.synchronise state.rest.length).rest.length < state.rest.length := by
  rcases synchronise_moves onward.rest.length_le with shorter | ⟨same, closes⟩
  · exact shorter
  · rw [same]
    refine Nat.lt_of_le_of_ne onward.rest.length_le fun length => isOpen ?_
    have isRest := onward.rest.eq_of_length length
    rwa [Closes, isRest, onward.kind_eq isRest] at closes

/-- A round in a block or in a class passes an item, and adds a node or reports a fault. -/
def InnerRound (item : Parse NodeId) (fuel : Nat) (state : ParseState) : Prop :=
  ∃ (after : ParseState) (nodes : List NodeId),
    state.Onward after ∧ after.rest.length < state.rest.length ∧
      ((∃ node, nodes = [node]) ∨ nodes = [] ∧ state.faults < after.faults) ∧
      statementsUpTo item (fuel + 1) state =
        ((statementsUpTo item fuel after).1.map (nodes ++ ·), (statementsUpTo item fuel after).2)

attribute [local simp] Bind.bind

theorem innerRound (item : Parse NodeId) [steady : Steady true item] (fuel : Nat)
    (ready : state.Ready 0) (isOpen : ¬state.Closes) : InnerRound item fuel state := by
  have notBrace : state.nextIs (.symbol .rightBrace) = false := by
    simpa [nextIs] using fun isBrace => isOpen (.inr isBrace)
  have isItem : state.rest ≠ [] := fun isEnd => isOpen (.inl isEnd)
  have notFinish : state.atFinish = false := by simpa using mt (atFinish_iff ready).mp isItem
  have leads := steady.leads state
  rcases result : item state with ⟨_ | node, middle⟩ <;> rw [result] at leads
  · -- The item is left out, and recovery passes what was read of it.
    have shape : statementsUpTo item (fuel + 1) state =
        statementsUpTo item fuel (middle.synchronise state.rest.length) := by
      simp [statementsUpTo, ask, attempt, Parse.synchronise, notBrace, notFinish, result]
    exact ⟨middle.synchronise state.rest.length, [], leads.onward.trans (onward_synchronise _ _),
      synchronise_shorter leads.onward isOpen, .inr ⟨rfl, leads.reports rfl⟩, by simp [shape]⟩
  · have shape : statementsUpTo item (fuel + 1) state =
        (return node :: (← statementsUpTo item fuel) : Parse _) middle := by
      simp [statementsUpTo, ask, attempt, notBrace, notFinish, result]
    refine ⟨middle, [node], leads.onward, leads.shorter rfl isItem (Option.some_ne_none _),
      .inl ⟨node, rfl⟩, ?_⟩
    rw [shape]
    rcases others : statementsUpTo item fuel middle with ⟨_ | nodes, last⟩ <;>
      simp [Pure.pure, others]

theorem closes_statementsUpTo (item : Parse NodeId) [Steady true item] (fuel : Nat)
    (ready : state.Ready 0) (enough : state.rest.length ≤ fuel) :
    (statementsUpTo item fuel state).2.Closes := by
  induction fuel generalizing state with
  | zero => exact .inl (List.eq_nil_of_length_eq_zero (Nat.eq_zero_of_le_zero enough))
  | succ fuel ih =>
    by_cases closes : state.Closes
    · have stops : (state.nextIs (.symbol .rightBrace) || state.atFinish) = true := by
        simpa [nextIs, atFinish_iff ready] using closes.symm
      have shape : statementsUpTo item (fuel + 1) state = (some [], state) := by
        simp [statementsUpTo, Pure.pure, ask, stops]
      rwa [shape]
    · obtain ⟨after, _, onward, shorter, -, shape⟩ := innerRound item fuel ready closes
      rw [shape]
      exact ih (ready.onward onward) (by omega)

variable (inner : Phrases) [inner.Steady] (before : Contents)

def OneMore (before after : Contents) : Prop :=
  ∃ node,
    after = { before with imports := before.imports ++ [node] } ∨
      after = { before with declarations := before.declarations ++ [node] }

/-- What is answered has one node more, or nothing more and a fault is reported. -/
def Adds (before : Contents) (state : ParseState) (reader : Parse Contents) : Prop :=
  ∀ contents after,
    reader state = (some contents, after) →
      OneMore before contents ∨ contents = before ∧ state.faults < after.faults

theorem Adds.bind {α : Type} {reader : Parse α} {following : α → Parse Contents}
    [steady : Steady false reader] (adds : ∀ value state, Adds before state (following value)) :
    Adds before state (reader >>= following) := by
  intro contents after result
  have leads := steady.leads state
  rcases found : reader state with ⟨_ | value, middle⟩ <;> rw [found] at leads <;>
    simp [found] at result
  refine (adds value middle contents after result).imp_right fun ⟨same, reported⟩ => ?_
  exact ⟨same, Nat.lt_of_le_of_lt leads.onward.faults reported⟩

theorem adds_topLevel : Adds before state (topLevel inner before) := by
  have declares : ∀ (node : NodeId) (state : ParseState),
      Adds before state (pure { before with declarations := before.declarations ++ [node] }) := by
    rintro node _ _ _ ⟨⟩
    exact .inl ⟨node, .inr rfl⟩
  refine .bind _ fun kind middle => ?_
  split
  · refine .bind _ fun node last => ?_
    split <;> rintro _ _ ⟨⟩
    · exact .inl ⟨node, .inl rfl⟩
    · exact .inr ⟨rfl, faults_report last _ _⟩
  · exact .bind _ declares
  · exact .bind _ declares
  · exact .bind _ declares
  · exact .bind _ declares
  · nofun

theorem recover_eq (count : Nat) (state : ParseState) :
    recover count state =
      (some (),
        if (state.synchronise count).nextIs (.symbol .rightBrace) then
          (state.synchronise count).advance
        else
          state.synchronise count) := by
  by_cases isBrace : (state.synchronise count).nextIs (.symbol .rightBrace) = true <;>
    simp [recover, Pure.pure, Parse.synchronise, eat, isBrace]

theorem recover_shorter (ready : state.Ready 0) (onward : state.Onward middle)
    (isItem : state.rest ≠ []) :
    (recover state.rest.length middle).2.rest.length < state.rest.length := by
  have later := onward.rest.length_le
  have further := (onward_synchronise middle state.rest.length).rest.length_le
  rw [recover_eq]
  dsimp only
  split
  · rename_i isBrace
    -- Nothing opens at the top level, so the brace itself is passed.
    have again := ready.onward (onward.trans (onward_synchronise middle state.rest.length))
    have split := congrArg List.length (again.rest_eq_of_kind (of_decide_eq_true isBrace) nofun)
    simp only [List.length_cons] at split
    omega
  · rename_i notBrace
    rcases synchronise_moves later with shorter | ⟨same, isEnd | isBrace⟩
    · exact shorter
    · rw [same, isEnd]
      exact List.length_pos_iff.mpr isItem
    · have sameKind := (onward_synchronise middle state.rest.length).kind_eq same
      exact absurd (decide_eq_true (sameKind.trans isBrace)) notBrace

/-- A round at the top level passes an item, and adds a node or reports a fault. -/
def OuterRound (inner : Phrases) (before : Contents) (fuel : Nat) (state : ParseState) : Prop :=
  ∃ (after : ParseState) (contents : Contents),
    state.Onward after ∧ after.rest.length < state.rest.length ∧
      (OneMore before contents ∨ contents = before ∧ state.faults < after.faults) ∧
      contentsUpTo inner (fuel + 1) before state = contentsUpTo inner fuel contents after

theorem outerRound (fuel : Nat) (ready : state.Ready 0) (isItem : state.rest ≠ []) :
    OuterRound inner before fuel state := by
  have notFinish : state.atFinish = false := by simpa using mt (atFinish_iff ready).mp isItem
  have leads := (inferInstance : Steady true (topLevel inner before)).leads state
  rcases result : topLevel inner before state with ⟨_ | contents, middle⟩ <;> rw [result] at leads
  · have recovers := (inferInstance : Steady false (recover state.rest.length)).leads middle
    have shape : contentsUpTo inner (fuel + 1) before state =
        contentsUpTo inner fuel before (recover state.rest.length middle).2 := by
      simp [contentsUpTo, ask, attempt, notFinish, result, recover_eq]
    exact ⟨_, before, leads.onward.trans recovers.onward, recover_shorter ready leads.onward isItem,
      .inr ⟨rfl, Nat.lt_of_lt_of_le (leads.reports rfl) recovers.onward.faults⟩, shape⟩
  · have shape : contentsUpTo inner (fuel + 1) before state =
        contentsUpTo inner fuel contents middle := by
      simp [contentsUpTo, ask, attempt, notFinish, result]
    exact ⟨middle, contents, leads.onward, leads.shorter rfl isItem (Option.some_ne_none _),
      adds_topLevel inner before contents middle result, shape⟩

theorem contentsUpTo_ends (fuel : Nat) (ready : state.Ready 0)
    (enough : state.rest.length ≤ fuel) :
    state.Onward (contentsUpTo inner fuel before state).2 ∧
      (contentsUpTo inner fuel before state).2.rest = [] := by
  induction fuel generalizing state before with
  | zero =>
    exact ⟨.refl state, List.eq_nil_of_length_eq_zero (Nat.eq_zero_of_le_zero enough)⟩
  | succ fuel ih =>
    by_cases isEnd : state.rest = []
    · have shape : contentsUpTo inner (fuel + 1) before state = (some before, state) := by
        simp [contentsUpTo, Pure.pure, ask, (atFinish_iff ready).mpr isEnd]
      rw [shape]
      exact ⟨.refl state, isEnd⟩
    · obtain ⟨after, contents, onward, shorter, -, shape⟩ :=
        outerRound inner before fuel ready isEnd
      rw [shape]
      exact (ih contents (ready.onward onward) (by omega)).imp_left onward.trans

theorem sourceFile_ends (ready : state.Ready 0) :
    (sourceFile inner state).2.rest = [] ∧
      (sourceFile inner state).2.finish = state.finish := by
  obtain ⟨onward, ends⟩ := contentsUpTo_ends inner ⟨[], []⟩ _ ready (Nat.le_refl _)
  rcases found : contentsUpTo inner state.rest.length ⟨[], []⟩ state with ⟨_ | contents, last⟩ <;>
    rw [found] at onward ends
  · simpa [sourceFile, here, ask, found] using ⟨ends, onward.finish⟩
  · by_cases isEmpty : (contents.imports.isEmpty && contents.declarations.isEmpty) = true <;>
      simpa [sourceFile, here, ask, found, isEmpty] using
        ⟨ends, onward.finish⟩

/-- Every reader, those inside a phrase with what has been read before them. -/
def readers
    (inner : Phrases)
    (kind : TokenKind)
    (start : Range)
    (taken : List String)
    (isCall : Bool)
    (operator : BinaryOp)
    (tier : Tier)
    (tighter : List Tier)
    (node : NodeId)
    (before : Contents) :
    List (Σ α : Type, Parse α) :=
  [⟨_, expect kind⟩, ⟨_, name⟩, ⟨_, terminator⟩, ⟨_, ascription inner⟩,
    ⟨_, functionType inner start⟩, ⟨_, parameter inner taken⟩, ⟨_, parameters inner⟩,
    ⟨_, optionalAscription inner⟩, ⟨_, block inner⟩, ⟨_, expression inner⟩, ⟨_, lambda inner⟩,
    ⟨_, numberLiteral⟩, ⟨_, parenthesised inner⟩, ⟨_, primary inner⟩, ⟨_, arguments inner⟩,
    ⟨_, link inner isCall node⟩, ⟨_, suffixes inner node⟩, ⟨_, unary inner⟩,
    ⟨_, operation operator (tiers inner tighter) node⟩,
    ⟨_, operators tier (tiers inner tighter) node⟩, ⟨_, tiers inner tighter⟩,
    ⟨_, letDeclaration inner⟩, ⟨_, funDeclaration inner⟩, ⟨_, declaration inner⟩,
    ⟨_, returnStatement inner⟩, ⟨_, elseBranch inner⟩, ⟨_, conditional inner⟩,
    ⟨_, loop inner⟩, ⟨_, assignment inner⟩, ⟨_, expressionStatement inner⟩,
    ⟨_, statement inner⟩, ⟨_, classMember inner⟩, ⟨_, classDeclaration inner⟩,
    ⟨_, importDeclaration⟩, ⟨_, topLevel inner before⟩]

theorem steady_readers
    (kind : TokenKind)
    (start : Range)
    (taken : List String)
    (isCall : Bool)
    (operator : BinaryOp)
    (tier : Tier)
    (tighter : List Tier)
    (node : NodeId) :
    ∀ reader ∈ readers inner kind start taken isCall operator tier tighter node before,
      Steady false reader.2 := by
  simp only [readers, List.forall_mem_cons]
  and_intros
  all_goals first | infer_instance | nofun

end Grammar

open Grammar ParseState in
/--
Reading ends at the end of any tokens. On its way every round of a loop passes
an item and adds a node, unless a fault is reported; recovery passes an item,
unless it stands at a closing brace or at the end; and a reader that answers
nothing has reported a fault.
-/
theorem SyntaxTree.parse_moves_on (tokens : List Token) :
    (∃ root last,
      Grammar.sourceFile (.upTo maxNesting) (.start tokens) = (some root, last) ∧
        SyntaxTree.parse tokens = ⟨⟨last.arena, root⟩, last.diagnostics⟩ ∧
        last.rest = [] ∧ last.current = (ParseState.start tokens).finish) ∧
      (∀ state, (ParseState.start tokens).Onward state → ∀ levels fuel,
        (∀ before, state.rest ≠ [] → OuterRound (.upTo levels) before fuel state) ∧
          ∀ item ∈ [(Phrases.upTo levels).statement, classMember (.upTo levels)],
            (¬state.Closes → InnerRound item fuel state) ∧
              (state.rest.length ≤ fuel → (statementsUpTo item fuel state).2.Closes)) ∧
      (∀ (state : ParseState) count, state.rest.length ≤ count →
        (state.synchronise count).rest.length < count ∨ (state.synchronise count).Closes) ∧
      ∀ levels kind start taken isCall operator tier tighter node before,
        ∀ reader ∈ readers (.upTo levels) kind start taken isCall operator tier tighter node before,
          ∀ state, (reader.2 state).1 = none → state.faults < (reader.2 state).2.faults := by
  have ready := ready_start tokens
  refine ⟨?_, fun state onward levels fuel => ⟨fun before => ?_, ?_⟩,
    fun state count later => ?_, ?_⟩
  · have total : Parse.Total (Grammar.sourceFile (.upTo maxNesting)) := total_sourceFile
    obtain ⟨root, last, result⟩ := total (.start tokens)
    obtain ⟨isEnd, finish⟩ : last.rest = [] ∧ last.finish = _ := by
      simpa [result] using sourceFile_ends (.upTo maxNesting) ready
    exact ⟨root, last, result, by simp [SyntaxTree.parse, result], isEnd,
      by simpa [current, isEnd] using finish⟩
  · exact outerRound (.upTo levels) before fuel (ready.onward onward)
  · have rounds : ∀ item : Parse NodeId, Steady true item →
        (¬state.Closes → InnerRound item fuel state) ∧
          (state.rest.length ≤ fuel → (statementsUpTo item fuel state).2.Closes) :=
      fun item _ => ⟨innerRound item fuel (ready.onward onward),
        closes_statementsUpTo item fuel (ready.onward onward)⟩
    simp only [List.forall_mem_cons]
    exact ⟨rounds _ inferInstance, rounds _ inferInstance, List.forall_mem_nil _⟩
  · refine (synchronise_moves later).imp_right ?_
    rintro ⟨same, closes⟩
    rwa [Closes, same, (onward_synchronise state count).kind_eq same]
  · intro levels kind start taken isCall operator tier tighter node before reader member state
    exact ((steady_readers (.upTo levels) before kind start taken isCall operator tier tighter node
      reader member).leads state).reports

end Toolshed
