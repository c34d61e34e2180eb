import Toolshed.Grammar.SourceFile

namespace Toolshed

/-!
# Two readings side by side

A reader asks only for the kinds and texts of the next items and for the line
breaks before them. Where these agree, only the ranges differ.
-/

/-- What counts of a token for the grammar. -/
def Token.sense (token : Token) : TokenKind × String × Option String :=
  (token.kind, token.raw, token.value)

def Item.sense (item : Item) : (TokenKind × String × Option String) × Bool :=
  (item.token.sense, item.fresh)

/-- What a diagnostic says, and the node that it is about. -/
def Diagnostic.sense (diagnostic : Diagnostic) : Fault × Option NodeId :=
  (diagnostic.fault, diagnostic.place.node?)

namespace ParseState

/--
States that differ only in ranges, and in what was reported before two readings
began.
-/
structure Alike (known others : List Diagnostic) (left right : ParseState) : Prop where
  rest : left.rest.map Item.sense = right.rest.map Item.sense
  finish : left.finish.sense = right.finish.sense
  nodes : left.arena.nodes = right.arena.nodes
  diagnostics :
    ∃ found made,
      left.diagnostics = known ++ found ∧ right.diagnostics = others ++ made ∧
        found.map Diagnostic.sense = made.map Diagnostic.sense
  depth : left.depth = right.depth

namespace Alike

variable {known others : List Diagnostic} {left right : ParseState}

theorem refl (state : ParseState) :
    state.Alike state.diagnostics state.diagnostics state :=
  ⟨rfl, rfl, rfl, ⟨[], [], by simp, by simp, rfl⟩, rfl⟩

variable (alike : left.Alike known others right)
include alike

theorem length_rest :
    left.rest.length = right.rest.length := by
  simpa using congrArg List.length alike.rest

theorem current :
    left.current.sense = right.current.sense := by
  have rest := alike.rest
  unfold ParseState.current
  generalize left.rest = items, right.rest = made at rest
  cases items <;> cases made <;> simp_all [alike.finish]

theorem kind : left.kind = right.kind :=
  congrArg (·.1.1) alike.current

theorem fresh : left.current.fresh = right.current.fresh :=
  congrArg Prod.snd alike.current

theorem advance :
    left.advance.Alike known others right.advance := by
  obtain ⟨rest, finish, nodes, diagnostics, depth⟩ := alike
  unfold ParseState.advance
  generalize sameLeft : left.rest = items, sameRight : right.rest = made at rest
  cases items <;> cases made <;> simp only [List.map_nil, List.map_cons, List.cons.injEq,
    reduceCtorEq] at rest
  · exact ⟨by simp [sameLeft, sameRight], finish, nodes, diagnostics, depth⟩
  · exact ⟨rest.2, finish, nodes, diagnostics, depth⟩

theorem kindAfter : left.kindAfter = right.kindAfter := by
  have rest := alike.rest
  unfold ParseState.kindAfter
  generalize left.rest = items, right.rest = made at rest
  have finish : left.finish.kind = right.finish.kind := congrArg (·.1.1) alike.finish
  rcases items with _ | ⟨_, _ | ⟨item, _⟩⟩ <;> rcases made with _ | ⟨_, _ | ⟨madeItem, _⟩⟩ <;>
    simp_all [Item.sense, Token.sense, Item.kind]

theorem report (fault : Fault) {place made : Place}
    (same : place.node? = made.node?) :
    (left.report fault place).Alike known others (right.report fault made) := by
  obtain ⟨rest, finish, nodes, ⟨found, reported, isFound, isReported, senses⟩, depth⟩ := alike
  refine ⟨rest, finish, nodes, ⟨found ++ [⟨fault, place⟩], reported ++ [⟨fault, made⟩], ?_, ?_, ?_⟩,
    depth⟩
  · simp [ParseState.report, isFound]
  · simp [ParseState.report, isReported]
  · simp [senses, Diagnostic.sense, same]

theorem withDepth {depth made : Nat} (same : depth = made) :
    ({ left with depth := depth } : ParseState).Alike known others { right with depth := made } :=
  ⟨alike.rest, alike.finish, alike.nodes, alike.diagnostics, same⟩

end Alike

theorem senses_skip {items made : List Item} (same : items.map Item.sense = made.map Item.sense)
    (moved : Bool) (previous other : Range) :
    (skip moved previous items).2.map Item.sense = (skip moved other made).2.map Item.sense := by
  induction items generalizing made moved previous other with
  | nil => cases made <;> simp_all [skip]
  | cons item rest ih =>
    cases made with
    | nil => simp at same
    | cons madeItem madeRest =>
      rw [List.map_cons, List.map_cons, List.cons.injEq] at same
      have kind : item.kind = madeItem.kind := congrArg (·.1.1) same.1
      have fresh : item.fresh = madeItem.fresh := congrArg Prod.snd same.1
      unfold skip
      rw [kind, fresh]
      split
      · simp [same]
      · split
        · exact same.2
        · split
          · simp [same]
          · exact ih same.2 true _ _

end ParseState

namespace Parse

open ParseState

variable {α β : Type}

class Answers (α : Type) where
  Alike : α → α → Prop

instance (priority := low) : Answers α :=
  ⟨Eq⟩

instance : Answers Range :=
  ⟨fun _ _ => True⟩

instance : Answers Token :=
  ⟨fun left right => left.sense = right.sense⟩

/-- Two readers do the same on items that agree. -/
class Parallel [Answers α] (left right : Parse α) : Prop where
  alike :
    ∀ {known others before after},
      before.Alike known others after →
      Option.Rel Answers.Alike (left before).1 (right after).1 ∧
        (left before).2.Alike known others (right after).2

class Follows [Answers α] [Answers β] (left right : α → Parse β) : Prop where
  parallel : ∀ {value made}, Answers.Alike value made → Parallel (left value) (right made)

abbrev Uniform [Answers α] (reader : Parse α) : Prop :=
  Parallel reader reader

theorem Parallel.kept [Answers α] (reader : Parse α) [parallel : Uniform reader]
    (state : ParseState) : state.diagnostics <+: (reader state).2.diagnostics := by
  obtain ⟨found, _, isFound, _⟩ := (parallel.alike (.refl state)).2.diagnostics
  exact ⟨found, isFound.symm⟩

namespace Parallel

instance (priority := low) (left right : α → Parse β) [Answers β]
    [same : ∀ value, Parallel (left value) (right value)] : Follows left right :=
  ⟨fun {value _} isSame => isSame ▸ same value⟩

instance (left right : Range → Parse β) [Answers β]
    [same : ∀ range made, Parallel (left range) (right made)] : Follows left right :=
  ⟨fun {range made} _ => same range made⟩

instance (left right : Token → Parse β) [Answers β]
    [same : ∀ kind raw value range made,
      Parallel (left ⟨kind, raw, value, range⟩) (right ⟨kind, raw, value, made⟩)] :
    Follows left right where
  parallel {token made} isSame := by
    obtain ⟨kind, raw, value, range⟩ := token
    obtain ⟨madeKind, madeRaw, madeValue, madeRange⟩ := made
    obtain ⟨rfl, rfl, rfl⟩ : kind = madeKind ∧ raw = madeRaw ∧ value = madeValue := by
      simpa [Answers.Alike, Token.sense] using isSame
    exact same kind raw value range madeRange

instance (value : α) : Uniform (pure value : Parse α) :=
  ⟨fun alike => ⟨.some rfl, alike⟩⟩

instance bind [Answers α] [Answers β] (left right : Parse α) (following made : α → Parse β)
    [first : Parallel left right] [second : Follows following made] :
    Parallel (left >>= following) (right >>= made) where
  alike {known others before after} alike := by
    obtain ⟨answers, states⟩ := first.alike alike
    simp only [Bind.bind]
    generalize left before = result, right after = madeResult at answers states
    obtain ⟨answer, state⟩ := result
    obtain ⟨madeAnswer, madeState⟩ := madeResult
    cases answers with
    | none => exact ⟨.none, states⟩
    | some same => exact (second.parallel same).alike states

instance [Answers α] (decision : Prop) [Decidable decision] (first second made other : Parse α)
    [Parallel first made] [Parallel second other] :
    Parallel (if decision then first else second) (if decision then made else other) := by
  split <;> assumption

class Seen (question : ParseState → α) : Prop where
  same : ∀ {known others left right}, left.Alike known others right → question left = question right

instance (question : ParseState → α) [seen : Seen question] :
    Uniform (ask question) :=
  ⟨fun alike => ⟨.some (seen.same alike), alike⟩⟩

instance (question made : ParseState → Range) : Parallel (ask question) (ask made) :=
  ⟨fun alike => ⟨.some trivial, alike⟩⟩

instance : Seen ParseState.kind :=
  ⟨Alike.kind⟩

instance : Seen fun state : ParseState => state.rest.length :=
  ⟨Alike.length_rest⟩

instance : Seen fun state : ParseState => (state.kind, state.kindAfter) :=
  ⟨fun alike => by rw [alike.kind, alike.kindAfter]⟩

instance nextIs (kind : TokenKind) : Seen (ParseState.nextIs · kind) :=
  ⟨fun alike => by simp [ParseState.nextIs, alike.kind]⟩

instance atFinish : Seen ParseState.atFinish :=
  ⟨fun alike => by simp [ParseState.atFinish, alike.kind]⟩

instance continues (sign : Symbol) : Seen (ParseState.continues · sign) :=
  ⟨fun alike => by simp [ParseState.continues, ParseState.nextIs, alike.kind, alike.fresh]⟩

instance : Seen fun state : ParseState =>
    state.nextIs (.symbol .rightBrace) || state.atFinish :=
  ⟨fun alike => by rw [(nextIs _).same alike, atFinish.same alike]⟩

instance : Seen Grammar.returnsNothing :=
  ⟨fun alike => by
    simp [Grammar.returnsNothing, (nextIs _).same alike, atFinish.same alike, alike.fresh]⟩

instance (tier : Tier) : Seen (Grammar.operator? tier) :=
  ⟨fun alike => by simp only [Grammar.operator?, (continues _).same alike]⟩

instance : Seen Grammar.suffix? :=
  ⟨fun alike => by simp only [Grammar.suffix?, (continues _).same alike]⟩

instance [Answers α] (fault : TokenKind → Fault) :
    Uniform (refuse fault : Parse α) :=
  ⟨fun alike => ⟨.none, by simp only [refuse, alike.kind]; exact alike.report _ rfl⟩⟩

instance [Answers α] (fault : Fault) (range made : Range) :
    Parallel ((fun state => (none, state.report fault (.range range))) : Parse α)
      (fun state => (none, state.report fault (.range made))) :=
  ⟨fun alike => ⟨.none, alike.report _ rfl⟩⟩

instance (fault : Fault) (node : NodeId) : Uniform (note fault node) :=
  ⟨fun alike => ⟨.some rfl, alike.report _ rfl⟩⟩

instance : Uniform next :=
  ⟨fun alike => ⟨.some (congrArg Prod.fst alike.current), alike.advance⟩⟩

instance (node : Node) (range made : Range) : Parallel (make node range) (make node made) where
  alike alike := by
    refine ⟨.some (congrArg Array.size alike.nodes), alike.rest, alike.finish, ?_,
      alike.diagnostics, alike.depth⟩
    simp [make, Arena.add, alike.nodes]

instance (start made : Range) (node : Node) : Parallel (makeFrom start node) (makeFrom made node) :=
  ⟨fun alike => (inferInstance : Parallel (make node _) (make node _)).alike alike⟩

instance : Uniform enter where
  alike {known others before after} alike := by
    unfold enter
    rw [alike.depth]
    split
    · exact (inferInstance : Uniform (refuse _ : Parse Unit)).alike alike
    · exact ⟨.some rfl, alike.withDepth rfl⟩

instance (levels : Nat) : Uniform (leaveMany levels) :=
  ⟨fun alike => ⟨.some rfl, alike.withDepth (congrArg (· - levels) alike.depth)⟩⟩

instance : Uniform leave :=
  inferInstanceAs (Uniform (leaveMany 1))

instance (result : Option NodeId) : Uniform (answer result) :=
  ⟨fun alike => ⟨by cases result <;> constructor; rfl, alike⟩⟩

instance (left right : Parse α) [inside : Parallel left right] :
    Parallel (attempt left) (attempt right) where
  alike alike := by
    have same := inside.alike alike
    refine ⟨.some ?_, same.2⟩
    generalize (left _).1 = answer, (right _).1 = made at same
    cases same.1 with
    | none => rfl
    | some isSame => exact congrArg some isSame

instance (before : Nat) : Uniform (synchronise before) where
  alike alike := by
    refine ⟨.some rfl, ?_, alike.finish, alike.nodes, alike.diagnostics, alike.depth⟩
    simp only [synchronise, ParseState.synchronise, alike.length_rest]
    exact senses_skip alike.rest _ _ _

instance : Uniform here :=
  inferInstanceAs (Parallel (ask _) (ask _))

instance (kind : TokenKind) : Uniform (eat kind) where
  alike alike := by
    unfold eat
    rw [(nextIs kind).same alike]
    split
    · exact ⟨.some rfl, alike.advance⟩
    · exact ⟨.some rfl, alike⟩

instance (kind : TokenKind) : Uniform (expect kind) where
  alike alike := by
    unfold expect
    rw [(nextIs kind).same alike]
    split
    · exact ⟨.some rfl, alike.advance⟩
    · exact (inferInstance : Uniform (refuse _ : Parse Unit)).alike alike

instance : Uniform name where
  alike alike := by
    unfold name
    rw [(nextIs _).same alike]
    split
    · have raw := congrArg (·.1.2.1) alike.current
      have value := congrArg (·.1.2.2) alike.current
      simp only [Item.sense, Token.sense] at raw value
      simp only [raw, value]
      exact ⟨.some rfl, alike.advance⟩
    · exact (inferInstance : Uniform (refuse _ : Parse String)).alike alike

instance : Uniform terminator where
  alike alike := by
    unfold terminator
    rw [(nextIs _).same alike, (nextIs _).same alike, atFinish.same alike, alike.fresh]
    split
    · exact ⟨.some rfl, alike.advance⟩
    · split
      · exact ⟨.some rfl, alike⟩
      · exact (inferInstance : Uniform (refuse _ : Parse Unit)).alike alike

instance separatedUpTo (phrase : Parse α) [Uniform phrase] (fuel : Nat) :
    Uniform (Parse.separatedUpTo phrase fuel) := by
  induction fuel with
  | zero => unfold Parse.separatedUpTo; infer_instance
  | succ fuel ih => unfold Parse.separatedUpTo; infer_instance

instance (phrase : Parse α) [Uniform phrase] : Uniform (separated phrase) where
  alike alike := by
    unfold separated
    rw [alike.length_rest]
    exact (separatedUpTo phrase _).alike alike

instance attempted [Answers β] (phrase : Parse α) (following : Option α → Parse β)
    [Uniform phrase] [failed : Uniform (following none)]
    [read : ∀ value, Uniform (following (some value))] :
    Uniform (Parse.attempt phrase >>= following) := by
  have later : ∀ answer, Uniform (following answer)
    | none => failed
    | some value => read value
  exact bind _ _ _ _

theorem sequence [Answers β] {reader : Parse α} [Uniform reader] {left right : α → Parse β}
    (later : ∀ answer, Parallel (left answer) (right answer)) :
    Parallel (reader >>= left) (reader >>= right) :=
  bind _ _ _ _

theorem scanned [Answers β] {left right : Token → Parse β}
    (later :
      ∀ kind raw value range made,
        Parallel (left ⟨kind, raw, value, range⟩) (right ⟨kind, raw, value, made⟩)) :
    Parallel (next >>= left) (next >>= right) :=
  bind _ _ _ _

theorem ranged [Answers β] {question : Parse Range} [Uniform question]
    {left right : Range → Parse β}
    (later : ∀ range made, Parallel (left range) (right made)) :
    Parallel (question >>= left) (question >>= right) :=
  bind _ _ _ _

end Parallel

end Parse

open Parse (Uniform Parallel)

class Phrases.Regular (inner : Phrases) : Prop where
  tiers : Uniform inner.tiers
  unary : Uniform inner.unary
  expression : Uniform inner.expression
  ascription : Uniform inner.ascription
  statement : Uniform inner.statement
  conditional : Uniform inner.conditional
  declaration : Uniform inner.declaration

attribute [instance] Phrases.Regular.tiers Phrases.Regular.unary Phrases.Regular.expression
  Phrases.Regular.ascription Phrases.Regular.statement Phrases.Regular.conditional
  Phrases.Regular.declaration

namespace Grammar

open Parse

section Uniform

instance uniform_pathSegmentsUpTo (fuel : Nat) : Uniform (pathSegmentsUpTo fuel) := by
  induction fuel with
  | zero => unfold pathSegmentsUpTo; infer_instance
  | succ fuel ih => unfold pathSegmentsUpTo; infer_instance

instance : Uniform importDeclaration := by
  refine .ranged fun start made => .scanned fun _ _ _ _ _ => ?_
  refine .sequence fun first => .sequence fun left => ?_
  refine .sequence fun others => .sequence fun isNamed => ?_
  infer_instance

variable (inner : Phrases) [inner.Regular]

instance (start made : Range) : Parallel (functionType inner start) (functionType inner made) := by
  unfold functionType
  refine .sequence fun isClosed => ?_
  infer_instance

instance : Uniform (ascription inner) := by
  refine .ranged fun start made => .sequence fun kind => ?_
  split <;> infer_instance

instance (taken : List String) : Uniform (parameter inner taken) := by
  unfold parameter
  infer_instance

instance uniform_parametersUpTo (fuel : Nat) (taken : List String) :
    Uniform (parametersUpTo inner fuel taken) := by
  induction fuel generalizing taken with
  | zero => unfold parametersUpTo; infer_instance
  | succ fuel ih => unfold parametersUpTo; infer_instance

instance : Uniform (parameters inner) := by
  refine .sequence fun _ => .sequence fun isClosed => ?_
  infer_instance

instance : Uniform (optionalAscription inner) := by
  unfold optionalAscription
  infer_instance

instance uniform_statementsUpTo (statement : Parse NodeId) [Uniform statement] (fuel : Nat) :
    Uniform (statementsUpTo statement fuel) := by
  induction fuel with
  | zero => unfold statementsUpTo; infer_instance
  | succ fuel ih =>
    unfold statementsUpTo
    infer_instance

instance (statement : Parse NodeId) [Uniform statement] : Uniform (statements statement) := by
  unfold statements
  infer_instance

instance : Uniform (block inner) := by
  refine .ranged fun start made => ?_
  infer_instance

instance : Uniform (expression inner) := by
  unfold expression
  infer_instance

instance : Uniform (lambda inner) := by
  refine .ranged fun start made => .scanned fun _ _ _ _ _ => ?_
  infer_instance

instance : Uniform numberLiteral := by
  refine .scanned fun kind raw value range made => ?_
  dsimp only
  split <;> infer_instance

instance : Uniform (parenthesised inner) := by
  unfold parenthesised
  infer_instance

instance : Uniform (primary inner) := by
  refine .ranged fun start made => .sequence fun kind => ?_
  split <;> infer_instance

instance : Uniform (arguments inner) := by
  unfold arguments
  infer_instance

instance (node : NodeId) : Uniform (rangeOf node) :=
  inferInstanceAs (Uniform (ask _))

instance (isCall : Bool) (subject : NodeId) : Uniform (link inner isCall subject) := by
  unfold link
  infer_instance

instance (links : Nat) (result : Option NodeId) : Uniform (leaving links result) := by
  unfold leaving
  infer_instance

instance uniform_linksUpTo {α κ : Type} [Answers α] (find : ParseState → Option κ)
    [Parallel.Seen find]
    (link : κ → NodeId → Parse NodeId) [∀ sort node, Uniform (link sort node)]
    (finish : Nat → Option NodeId → Parse α) [∀ links result, Uniform (finish links result)]
    (fuel links : Nat) (before : NodeId) :
    Uniform (linksUpTo find link finish fuel links before) := by
  induction fuel generalizing links before with
  | zero => unfold linksUpTo; infer_instance
  | succ fuel ih =>
    refine .sequence fun found => ?_
    cases found <;> infer_instance

instance (subject : NodeId) : Uniform (suffixes inner subject) := by
  unfold suffixes
  infer_instance

instance : Uniform (unary inner) := by
  refine .sequence fun kind => ?_
  split <;> infer_instance

instance (operator : BinaryOp) (operand : Parse NodeId) [Uniform operand] (left : NodeId) :
    Uniform (operation operator operand left) := by
  unfold operation
  infer_instance

instance (tier : Tier) (operand : Parse NodeId) [Uniform operand] (left : NodeId) :
    Uniform (operators tier operand left) := by
  unfold operators
  infer_instance

instance uniform_tiers (all : List Tier) : Uniform (tiers inner all) := by
  induction all with
  | nil => unfold tiers; infer_instance
  | cons tier tighter ih => unfold tiers; infer_instance

instance : Uniform (letDeclaration inner) := by
  unfold letDeclaration
  infer_instance

instance : Uniform (funDeclaration inner) := by
  unfold funDeclaration
  infer_instance

instance : Uniform (declaration inner) := by
  unfold declaration
  infer_instance

instance : Uniform (returnStatement inner) := by
  refine .ranged fun start made => .scanned fun _ _ _ _ _ => ?_
  infer_instance

instance : Uniform (elseBranch inner) := by
  refine .sequence fun isElse => ?_
  split
  · exact .sequence fun isNested => inferInstance
  · infer_instance

instance : Uniform (conditional inner) := by
  unfold conditional
  infer_instance

instance : Uniform (loop inner) := by
  unfold loop
  infer_instance

instance : Uniform (assignment inner) := by
  unfold assignment
  infer_instance

instance uniform_target (found : NodeId) : Uniform (do
    if ← ask (·.nextIs (.symbol .equal)) then
      fun state => (none, state.report .invalidTarget (.node found))
    else
      let range ← rangeOf found
      terminator
      make (.expressionStatement found) range) := by
  refine .sequence fun isTarget => ?_
  cases isTarget with
  | true => exact ⟨fun alike => ⟨.none, alike.report _ rfl⟩⟩
  | false =>
    exact inferInstanceAs (Uniform (do
      let range ← rangeOf found
      terminator
      make (.expressionStatement found) range))

instance : Uniform (expressionStatement inner) := by
  unfold expressionStatement
  infer_instance

instance : Uniform (statement inner) := by
  refine .sequence fun next => ?_
  dsimp only
  split <;> infer_instance

instance : Uniform (classMember inner) := by
  refine .sequence fun kind => ?_
  split <;> infer_instance

instance : Uniform (classDeclaration inner) := by
  refine .ranged fun start made => .scanned fun _ _ _ _ _ => ?_
  refine .sequence fun declared => .sequence fun found => ?_
  refine .sequence fun isOpened => ?_
  split <;> infer_instance

instance (before : Contents) : Uniform (topLevel inner before) := by
  refine .sequence fun kind => ?_
  split <;> infer_instance

instance (before : Nat) : Uniform (recover before) := by
  unfold recover
  infer_instance

instance uniform_contentsUpTo (fuel : Nat) (before : Contents) :
    Uniform (contentsUpTo inner fuel before) := by
  induction fuel generalizing before with
  | zero => unfold contentsUpTo; infer_instance
  | succ fuel ih =>
    unfold contentsUpTo
    infer_instance

instance : Uniform (sourceFile inner) := by
  unfold sourceFile
  infer_instance

end Uniform

end Grammar

instance Phrases.regular_above (inner : Phrases) [inner.Regular] : inner.above.Regular where
  tiers := Grammar.uniform_tiers inner Tier.all
  unary := inferInstanceAs (Uniform (Grammar.unary inner))
  expression := inferInstanceAs (Uniform (Grammar.expression inner))
  ascription := inferInstanceAs (Uniform (Grammar.ascription inner))
  statement := inferInstanceAs (Uniform (Grammar.statement inner))
  conditional := inferInstanceAs (Uniform (Grammar.conditional inner))
  declaration := inferInstanceAs (Uniform (Grammar.declaration inner))

instance Phrases.regular_none : Phrases.none.Regular where
  tiers := inferInstanceAs (Uniform (Parse.refuse fun _ => Fault.tooDeep))
  unary := inferInstanceAs (Uniform (Parse.refuse fun _ => Fault.tooDeep))
  expression := inferInstanceAs (Uniform (Parse.refuse fun _ => Fault.tooDeep))
  ascription := inferInstanceAs (Uniform (Parse.refuse fun _ => Fault.tooDeep))
  statement := inferInstanceAs (Uniform (Parse.refuse fun _ => Fault.tooDeep))
  conditional := inferInstanceAs (Uniform (Parse.refuse fun _ => Fault.tooDeep))
  declaration := inferInstanceAs (Uniform (Parse.refuse fun _ => Fault.tooDeep))

instance Phrases.regular_upTo (levels : Nat) : (Phrases.upTo levels).Regular := by
  induction levels with
  | zero => exact Phrases.regular_none
  | succ levels ih => exact Phrases.regular_above _

end Toolshed
