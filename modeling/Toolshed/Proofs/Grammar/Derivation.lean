import Toolshed.Grammar.SourceFile
import Toolshed.Proofs.Grammar.Faultless

namespace Toolshed

/-!
# Derivations

Every reader that meets no fault has read items that spell the node which it
answers. The readers of one level are treated over those one level deeper.
-/

def Declaration.words : List TokenKind :=
  [.keyword .letWord, .keyword .varWord, .keyword .funWord]

def Statement.ConditionalSpelled
    (items : List Item)
    (statement : Statement)
    (rest : List Item) : Prop :=
  statement.isConditional = true ∧ statement.Spelled items rest

class Phrases.Spells (inner : Phrases) : Prop where
  tiers : Parse.Spells (Expression.Spelled 0) Arena.expressionAt 1 inner.tiers
  unary : Parse.Spells Expression.UnarySpelled Arena.expressionAt 1 inner.unary
  expression : Parse.Spells (Expression.Spelled 0) Arena.expressionAt 1 inner.expression
  ascription : Parse.Spells TypeExpression.Spelled Arena.typeAt 1 inner.ascription
  statement : Parse.Spells Statement.Spelled Arena.statementAt 2 inner.statement
  conditional :
    Parse.SpellsAt [.keyword .ifWord] Statement.ConditionalSpelled Arena.statementAt 1
      inner.conditional
  declaration :
    Parse.SpellsAt Declaration.words Declaration.Spelled Arena.declarationAt 1 inner.declaration

namespace Grammar

open Parse ParseState

variable {inner : Phrases} [phrases : inner.Spells] {bound : Nat} {known : Arena → Prop}
variable {state : ParseState} {tighter : List Tier} {level : Nat} {tier : Tier}

theorem runs_functionType (start : Range) (ready : state.Ready bound) :
    Runs bound known state (functionType inner start) fun id rest arena =>
      ∃ tree : TypeExpression,
        (∀ opening : Item,
          opening.kind = .symbol .leftParen → tree.Spelled (opening :: state.rest) rest) ∧
        arena.ShowsType id tree := by
  refine .ask ?_
  have tail : ∀ (found : List NodeId) (before : ParseState) (knows : Arena → Prop),
      before.Ready bound →
      (∀ arena, knows arena → ∃ trees,
        TypeExpression.ListSpelled state.rest trees before.rest ∧
          List.Forall₂ arena.ShowsType found trees) →
      Runs bound knows before
        (do
          expect (.symbol .rightParen)
          expect (.symbol .arrow)
          let result ← inner.ascription
          makeFrom start (.functionType found result))
        fun id rest arena =>
          ∃ tree : TypeExpression,
            (∀ opening : Item,
              opening.kind = .symbol .leftParen → tree.Spelled (opening :: state.rest) rest) ∧
            arena.ShowsType id tree := by
    intro found before knows ready spelled
    refine .bind ready (.expect ready rfl) fun _ closed ready => ?_
    refine .bind ready (.expect ready rfl) fun _ after ready => ?_
    refine .bind ready (phrases.ascription _ _ _ ready) fun result last ready => ?_
    refine .makeFrom ?_
    rintro ⟨⟨⟨knows, isClosing, closing⟩, isArrow, arrow⟩, type, typed, shownResult⟩
    obtain ⟨trees, spelled, shown⟩ := spelled _ knows
    rw [closing, arrow] at spelled
    exact ⟨_, fun opening isOpening => .function isOpening spelled isClosing isArrow typed,
      Arena.showsType_function _ shown shownResult⟩
  split
  · exact tail [] state known ready fun arena _ => ⟨[], .nothing, .nil⟩
  · refine .bind ready
      (phrases.ascription.separated TypeExpression.AllSpelled.last .more ready) ?_
    intro found before ready
    refine tail found before _ ready ?_
    rintro arena ⟨_, trees, spelled, shown⟩
    exact ⟨trees, .something spelled, shown⟩

theorem spells_ascription :
    Spells TypeExpression.Spelled Arena.typeAt 1 (ascription inner) := by
  intro bound known state ready
  refine .ask (.ask ?_)
  split
  · refine .bind ready (.name ready) fun typeName after ready => ?_
    refine .make ?_
    rintro ⟨_, isName, rfl, items⟩
    rw [items]
    exact ⟨_, .named isName, Arena.showsType_named _ _⟩
  · rename_i isOpening
    refine .bind ready (.next ready fun _ _ => by simp [isOpening]) fun _ opened ready => ?_
    refine .deeper ready fun depth ready => ?_
    refine .imp (runs_functionType _ ready) ?_
    rintro id rest arena ⟨_, _, items⟩ ⟨tree, spelled, shown⟩
    rw [items]
    exact ⟨tree, spelled _ isOpening, shown⟩
  · exact .refuse ready _

theorem runs_parameter (taken : List String) (ready : state.Ready bound) :
    Runs bound known state (parameter inner taken) fun found rest arena =>
      ∃ tree : Parameter,
        tree.Spelled state.rest rest ∧ arena.ShowsParameter found.2 tree ∧
          tree.name? = some found.1 ∧ found.1 ∉ taken := by
  refine .ask ?_
  refine .bind ready (.name ready) fun parameterName named ready => ?_
  refine .bind ready (.expect ready rfl) fun _ typed ready => ?_
  refine .bind ready (spells_ascription _ _ _ ready) fun type after ready => ?_
  refine .bind ready
    (.makeFrom ?made :
      Runs bound _ after _ fun id rest arena =>
        ∃ tree : Parameter,
          (tree.Spelled state.rest rest ∧ tree.name? = some parameterName) ∧
            arena.ShowsParameter id tree)
    fun node last ready => ?_
  case made =>
    rintro ⟨⟨⟨_, isName, rfl, items⟩, isColon, typedItems⟩, tree, spelled, shown⟩
    rw [items, typedItems]
    exact ⟨_, ⟨.named isName isColon spelled, rfl⟩, Arena.showsParameter_named _ shown⟩
  split
  · refine .bind ready (.note ready _ node) fun _ _ _ => ?_
    exact .pure fun _ impossible => impossible.2.elim
  · rename_i isNew
    refine .pure ?_
    rintro arena ⟨_, tree, ⟨spelled, isNamed⟩, shown⟩
    exact ⟨tree, spelled, shown, isNamed, by simpa using isNew⟩

theorem runs_parametersUpTo (fuel : Nat) (taken : List String)
    (ready : state.Ready bound) :
    Runs bound known state (parametersUpTo inner fuel taken) fun ids rest arena =>
      ∃ trees,
        Parameter.AllSpelled state.rest trees rest ∧
          List.Forall₂ arena.ShowsParameter ids trees ∧
            DistinctParameters trees ∧
              ∀ name ∈ trees.filterMap Parameter.name?, name ∉ taken := by
  induction fuel generalizing known state taken with
  | zero =>
    refine .bind ready (runs_parameter taken ready) fun only after ready => ?_
    refine .pure ?_
    rintro arena ⟨_, tree, spelled, shown, isNamed, isNew⟩
    exact ⟨[tree], .last spelled, .cons shown .nil, by simp [DistinctParameters, isNamed],
      by simpa [isNamed] using isNew⟩
  | succ fuel ih =>
    refine .bind ready (runs_parameter taken ready) fun first after ready => ?_
    refine .eat ready (by decide) (fun others ready => ?_) fun _ => ?_
    · refine .bind ready (ih _ ready) fun ids last ready => ?_
      refine .pure ?_
      rintro arena ⟨⟨⟨_, tree, spelled, shown, isNamed, isNew⟩, isComma, items⟩,
        trees, spelledAll, shownAll, distinct, areNew⟩
      rw [items] at spelled
      refine ⟨tree :: trees, .more spelled isComma spelledAll, .cons shown shownAll, ?_, ?_⟩
      · simp only [DistinctParameters, List.filterMap_cons, isNamed, List.nodup_cons]
        exact ⟨fun repeated => areNew _ repeated (List.mem_cons_self ..), distinct⟩
      · simp only [List.filterMap_cons, isNamed, List.mem_cons, forall_eq_or_imp]
        exact ⟨isNew, fun name member isTaken =>
          areNew name member (List.mem_cons_of_mem _ isTaken)⟩
    · refine .pure ?_
      rintro arena ⟨_, tree, spelled, shown, isNamed, isNew⟩
      exact ⟨[tree], .last spelled, .cons shown .nil, by simp [DistinctParameters, isNamed],
        by simpa [isNamed] using isNew⟩

theorem runs_parameters (ready : state.Ready bound) :
    Runs bound known state (parameters inner) fun ids rest arena =>
      ∃ trees,
        Parameter.ListSpelled state.rest trees rest ∧
          List.Forall₂ arena.ShowsParameter ids trees := by
  refine .bind ready (.expect ready rfl) fun _ opened ready => ?_
  refine .ask ?_
  split
  · refine .pure_bind ?_
    refine .bind ready (.expect ready rfl) fun _ closed ready => ?_
    refine .pure ?_
    rintro arena ⟨⟨_, isOpening, items⟩, isClosing, inside⟩
    rw [items, inside]
    exact ⟨[], .nothing isOpening isClosing, .nil⟩
  · refine .ask ?_
    refine .bind ready (runs_parametersUpTo _ [] ready) fun ids last ready => ?_
    refine .bind ready (.expect ready rfl) fun _ closed ready => ?_
    refine .pure ?_
    rintro arena ⟨⟨⟨_, isOpening, items⟩, trees, spelled, shown, distinct, _⟩, isClosing, after⟩
    rw [after] at spelled
    rw [items]
    exact ⟨trees, .something isOpening spelled isClosing distinct, shown⟩

theorem runs_optionalAscription (ready : state.Ready bound) :
    Runs bound known state (optionalAscription inner) fun id rest arena =>
      ∃ tree,
        TypeExpression.AscriptionSpelled state.rest tree rest ∧
          Option.Rel arena.ShowsType id tree := by
  refine .eat ready (by decide) (fun typed ready => ?_) fun _ => ?_
  · refine .bind ready (spells_ascription _ _ _ ready) fun type after ready => ?_
    refine .pure ?_
    rintro arena ⟨⟨_, isColon, items⟩, tree, spelled, shown⟩
    rw [items]
    exact ⟨some tree, .written isColon spelled, .some shown⟩
  · exact .pure fun arena _ => ⟨none, .nothing, .none⟩

theorem runs_statementsUpTo {γ : Type} {single : List Item → γ → List Item → Prop}
    {all : List Item → List γ → List Item → Prop} {read : Arena → Nat → NodeId → γ} {slack : Nat}
    {statement : Parse NodeId} (spells : Spells single read slack statement)
    (nothing : ∀ {rest}, all rest [] rest)
    (more :
      ∀ {items others rest tree trees},
        single items tree others →
        all others trees rest →
        all items (tree :: trees) rest) (fuel : Nat) (ready : state.Ready bound) :
    Runs bound known state (statementsUpTo statement fuel) fun ids rest arena =>
      ∃ trees, all state.rest trees rest ∧ List.Forall₂ (arena.Shows read slack) ids trees := by
  induction fuel generalizing known state with
  | zero => exact Runs.pure fun arena _ => ⟨[], nothing, .nil⟩
  | succ fuel ih =>
    refine .ask ?_
    split
    · exact .pure fun arena _ => ⟨[], nothing, .nil⟩
    · refine .ask ?_
      refine .bind ready (spells _ _ _ ready).attempt fun answer after ready => ?_
      cases answer with
      | some node =>
        refine .bind ready (ih ready) fun ids last ready => ?_
        refine .pure ?_
        rintro arena ⟨⟨_, _, same, tree, spelled, shown⟩, trees, spelledAll, shownAll⟩
        obtain rfl := Option.some.inj same
        exact ⟨tree :: trees, more spelled spelledAll, .cons shown shownAll⟩
      | none =>
        refine .bind ready (.synchronise _) fun _ last ready => ?_
        refine .imp (ih ready) ?_
        -- A statement that failed has reported a fault.
        rintro ids rest arena ⟨⟨_, _, impossible, _⟩, _⟩
        simp at impossible

theorem runs_statements {γ : Type} {single : List Item → γ → List Item → Prop}
    {all : List Item → List γ → List Item → Prop} {read : Arena → Nat → NodeId → γ} {slack : Nat}
    {statement : Parse NodeId} (spells : Spells single read slack statement)
    (nothing : ∀ {rest}, all rest [] rest)
    (more :
      ∀ {items others rest tree trees},
        single items tree others →
        all others trees rest →
        all items (tree :: trees) rest) (ready : state.Ready bound) :
    Runs bound known state (deeper (statements statement)) fun ids rest arena =>
      ∃ trees, all state.rest trees rest ∧ List.Forall₂ (arena.Shows read slack) ids trees :=
  Runs.deeper ready fun _ ready => .ask (runs_statementsUpTo spells nothing more _ ready)

theorem runs_block (ready : state.Ready bound) :
    Runs bound known state (block inner) fun id rest arena =>
      ∃ tree : Block,
        ((∃ number statements, tree = .statements number statements) ∧
          tree.Spelled state.rest rest) ∧
        arena.ShowsBlock id tree := by
  refine .ask ?_
  refine .bind ready (.expect ready rfl) fun _ opened ready => ?_
  rw [deeper_statements]
  refine .bind ready
    (runs_statements phrases.statement Statement.AllSpelled.nothing .more ready) ?_
  intro ids inside ready
  refine .bind ready (.expect ready rfl) fun _ closed ready => ?_
  refine .makeFrom ?_
  rintro ⟨⟨⟨_, isOpening, items⟩, trees, spelled, shown⟩, isClosing, after⟩
  rw [after] at spelled
  rw [items]
  exact ⟨_, ⟨⟨_, _, rfl⟩, .braces isOpening spelled isClosing⟩, Arena.showsBlock _ shown⟩

theorem spells_expression :
    Spells (Expression.Spelled 0) Arena.expressionAt 1 (expression inner) :=
  fun _ _ _ ready => .deeper ready fun _ ready =>
    phrases.tiers _ _ _ ready

theorem spellsAt_lambda :
    SpellsAt [.keyword .funWord] Expression.PrimarySpelled Arena.expressionAt 1
      (lambda inner) := by
  intro bound known state ready starts
  have isWord : state.kind = .keyword .funWord := List.mem_singleton.mp starts
  refine .ask ?_
  refine .next_shorter ready (by simp [isWord]) fun opened ready => ?_
  refine .bind ready (runs_parameters ready) fun found typed ready => ?_
  refine .bind ready (runs_optionalAscription ready) fun result after ready => ?_
  refine .eat ready (by decide) (fun arrowed ready => ?_) fun _ => ?_
  · refine .bind ready (spells_expression _ _ _ ready) fun body last ready => ?_
    refine .makeFrom ?_
    rintro ⟨⟨⟨⟨⟨_, items⟩, parameterTrees, parameters, shownParameters⟩, resultTree, ascription,
      shownResult⟩, isArrow, arrow⟩, bodyTree, spelled, shownBody⟩
    rw [arrow] at ascription
    rw [items]
    exact ⟨_, .lambda isWord parameters ascription (.expression isArrow spelled),
      Arena.showsExpression_lambda _ shownParameters shownResult shownBody⟩
  · refine .ask ?_
    split
    · refine .bind ready (runs_block ready) fun body last ready => ?_
      refine .makeFrom ?_
      rintro ⟨⟨⟨⟨_, items⟩, parameterTrees, parameters, shownParameters⟩, resultTree, ascription,
        shownResult⟩, bodyTree, ⟨_, spelled⟩, shownBody⟩
      rw [items]
      exact ⟨_, .lambda isWord parameters ascription (.block spelled),
        Arena.showsExpression_lambda _ shownParameters shownResult shownBody⟩
    · exact .refuse ready _

theorem spells_numberLiteral (ready : state.Ready bound) (isNumber : state.kind = .number) :
    Runs bound known state numberLiteral fun id rest arena =>
      ∃ tree : Expression, tree.PrimarySpelled state.rest rest ∧ arena.ShowsExpression id tree := by
  refine .bind ready (.next ready fun _ _ => by simp [isNumber]) fun token after ready => ?_
  dsimp only
  split
  · rename_i value denotes
    refine .make ?_
    rintro ⟨_, rfl, items⟩
    rw [items]
    exact ⟨_, .number isNumber denotes, Arena.showsExpression_number _ value⟩
  · exact .of_fault ready rfl

theorem spells_parenthesised (ready : state.Ready bound)
    (isOpening : state.kind = .symbol .leftParen) :
    Runs bound known state (parenthesised inner) fun id rest arena =>
      ∃ tree : Expression, tree.PrimarySpelled state.rest rest ∧ arena.ShowsExpression id tree := by
  refine .ask ?_
  refine .bind ready (.next ready fun _ _ => by simp [isOpening]) fun _ opened ready => ?_
  refine .eat ready (by decide) (fun closed ready => ?_) fun _ => ?_
  · refine .makeFrom ?_
    rintro ⟨⟨_, _, items⟩, isClosing, inside⟩
    rw [items, inside]
    exact ⟨_, .unit isOpening isClosing, Arena.showsExpression_unit _⟩
  · refine .bind ready (spells_expression _ _ _ ready) fun found inside ready => ?_
    refine .bind ready (.expect ready rfl) fun _ closed ready => ?_
    refine .pure ?_
    rintro arena ⟨⟨⟨_, _, items⟩, tree, spelled, shown⟩, isClosing, after⟩
    rw [after] at spelled
    rw [items]
    exact ⟨tree, .parenthesised isOpening spelled isClosing, shown⟩

theorem spells_primary :
    Spells Expression.PrimarySpelled Arena.expressionAt 1 (primary inner) := by
  intro bound known state ready
  refine .ask (.ask ?_)
  split
  · rename_i isNumber
    exact spells_numberLiteral ready isNumber
  · rename_i isString
    refine .bind ready (.next ready fun _ _ => by simp [isString])
      fun token after ready => ?_
    refine .make ?_
    rintro ⟨_, rfl, items⟩
    rw [items]
    exact ⟨_, .string isString, Arena.showsExpression_string _ _⟩
  · rename_i isTrue
    refine .bind ready (.next ready fun _ _ => by simp [isTrue]) fun _ after ready => ?_
    refine .make ?_
    rintro ⟨_, _, items⟩
    rw [items]
    exact ⟨_, .trueWord isTrue, Arena.showsExpression_boolean _ true⟩
  · rename_i isFalse
    refine .bind ready (.next ready fun _ _ => by simp [isFalse]) fun _ after ready => ?_
    refine .make ?_
    rintro ⟨_, _, items⟩
    rw [items]
    exact ⟨_, .falseWord isFalse, Arena.showsExpression_boolean _ false⟩
  · refine .bind ready (.name ready) fun found after ready => ?_
    refine .make ?_
    rintro ⟨_, isName, rfl, items⟩
    rw [items]
    exact ⟨_, .identifier isName, Arena.showsExpression_identifier _ _⟩
  · rename_i isOpening
    exact spells_parenthesised ready isOpening
  · rename_i isWord
    refine .imp (spellsAt_lambda _ _ _ ready (by simp [isWord])) ?_
    exact fun _ _ _ _ found => found.1
  · exact .refuse ready _

theorem runs_arguments (ready : state.Ready bound) :
    Runs bound known state (arguments inner) fun ids rest arena =>
      ∃ inside closing trees,
        state.rest = state.current :: inside ∧
          Expression.ListSpelled inside trees (closing :: rest) ∧
            closing.kind = .symbol .rightParen ∧
              List.Forall₂ arena.ShowsExpression ids trees := by
  refine .bind ready (.expect ready rfl) fun _ opened ready => ?_
  refine .ask ?_
  split
  · refine .pure_bind ?_
    refine .bind ready (.expect ready rfl) fun _ closed ready => ?_
    refine .pure ?_
    rintro arena ⟨⟨_, isOpening, items⟩, isClosing, inside⟩
    exact ⟨_, opened.current, [], items, inside ▸ .nothing, isClosing, .nil⟩
  · refine .bind ready
      (phrases.expression.separated Expression.AllSpelled.last .more ready) ?_
    intro ids last ready
    refine .bind ready (.expect ready rfl) fun _ closed ready => ?_
    refine .pure ?_
    rintro arena ⟨⟨⟨_, isOpening, items⟩, trees, spelled, shown⟩, isClosing, after⟩
    rw [after] at spelled
    exact ⟨_, _, trees, items, .something spelled, isClosing, shown⟩

theorem kind_of_continues {sign : Symbol} (continues : state.continues sign = true) :
    state.kind = .symbol sign ∧ state.current.fresh = false := by
  simpa [ParseState.continues, nextIs] using continues

theorem continues_of_suffix? {isCall : Bool} (starts : suffix? state = some isCall) :
    state.continues (if isCall then .leftParen else .dot) = true := by
  unfold suffix? at starts
  split at starts
  · cases starts
    assumption
  · split at starts
    · cases starts
      assumption
    · cases starts

theorem extends_link (isCall : Bool) :
    Extends (suffix? · = some isCall) Expression.PostfixSpelled (link inner isCall) := by
  intro bound known state subject items ready starts knows
  obtain ⟨isKind, sameLine⟩ := kind_of_continues (continues_of_suffix? starts)
  cases isCall with
  | true =>
    refine .bind ready (runs_arguments ready) fun found after ready => ?_
    refine .ask (.makeFrom ?_)
    rintro ⟨known, inside, closing, trees, opened, spelled, isClosing, shown⟩
    obtain ⟨tree, spelledCallee, shownCallee⟩ := knows _ known
    rw [opened] at spelledCallee
    exact ⟨_, .call spelledCallee isKind sameLine spelled isClosing,
      Arena.showsExpression_call _ shownCallee shown⟩
  | false =>
    refine .bind ready (.next ready fun _ _ => by simp [isKind]) fun _ dotted ready => ?_
    refine .bind ready (.name ready) fun memberName after ready => ?_
    refine .ask (.makeFrom ?_)
    rintro ⟨⟨known, _, dot⟩, isName, rfl, named⟩
    obtain ⟨tree, spelled, shown⟩ := knows _ known
    rw [dot, named] at spelled
    exact ⟨_, .member spelled isKind sameLine isName, Arena.showsExpression_member _ shown⟩

/-- If each link extends an expression, then the links in a row do. -/
theorem extends_linked {κ : Type} {spelled : List Item → Expression → List Item → Prop}
    {find : ParseState → Option κ} {link : κ → NodeId → Parse NodeId}
    (level : ∀ state depth, find { state with depth := depth } = find state)
    (reads : ∀ sort, Extends (find · = some sort) spelled (link sort)) (fuel : Nat) :
    Extends (fun _ => True) spelled (linked find link fuel) := by
  induction fuel with
  | zero => exact fun _ _ _ _ _ _ _ knows => Runs.pure knows
  | succ fuel ih =>
    intro bound known state before items ready _ knows
    rw [linked_succ]
    refine .ask ?_
    split
    · rename_i sort finds
      refine .deeper ready fun depth ready => ?_
      have starts := (level state depth).trans finds
      refine .bind ready (reads sort _ _ _ _ items ready starts knows) ?_
      intro node after ready
      exact ih _ _ _ node items ready trivial fun _ known => known.2
    · exact .pure knows

theorem spells_unary :
    Spells Expression.UnarySpelled Arena.expressionAt 1 (unary inner) := by
  intro bound known state ready
  refine .ask ?_
  split
  · rename_i operator isOperator
    have isSign : state.kind = .symbol operator.sign := by
      unfold unaryOperator? at isOperator
      split at isOperator
      · rename_i isMinus
        obtain rfl := Option.some.inj isOperator
        exact isMinus
      · rename_i isBang
        obtain rfl := Option.some.inj isOperator
        exact isBang
      · simp at isOperator
    refine .bind ready (.next ready fun _ _ => by simp [isSign])
      fun token signed ready => ?_
    rw [deeper_bind]
    refine .bind ready
      (.deeper ready fun depth ready => phrases.unary _ _ _ ready :
        Runs bound _ signed _ fun id rest arena =>
          ∃ tree : Expression, tree.UnarySpelled signed.rest rest ∧ arena.ShowsExpression id tree)
      fun operand after ready => ?_
    refine .ask ?_
    refine .make ?_
    rintro ⟨⟨_, _, items⟩, tree, spelled, shown⟩
    rw [items]
    exact ⟨_, .operator isSign spelled, Arena.showsExpression_unary _ shown⟩
  · refine .bind ready (spells_primary _ _ _ ready) fun subject after ready => ?_
    rw [suffixes_eq]
    refine .ask (.imp (extends_linked (fun _ _ => rfl) extends_link after.rest.length
      _ _ _ subject state.rest ready trivial ?_) ?_)
    · rintro arena ⟨_, tree, spelled, shown⟩
      exact ⟨tree, .primary spelled, shown⟩
    · rintro id rest arena _ ⟨tree, spelled, shown⟩
      exact ⟨tree, .operand spelled, shown⟩

section

variable (stands : Tier.all.drop level = tier :: tighter)
include stands

theorem level_of_mem_tier {entry : Symbol × BinaryOp}
    (member : entry ∈ tier) :
    entry.2.sign = entry.1 ∧ entry.2.level = level := by
  have found : Tier.all[level]? = some tier := by
    rw [← List.head?_drop, stands, List.head?_cons]
  have checked : ∀ index : Fin 6, ∀ entry ∈ Tier.all[index],
      entry.2.sign = entry.1 ∧ entry.2.level = index := by decide
  obtain ⟨inside, rfl⟩ := List.getElem?_eq_some_iff.mp found
  exact checked ⟨level, inside⟩ entry member

theorem drop_succ_of_drop :
    level + 1 ≤ BinaryOp.levels ∧ Tier.all.drop (level + 1) = tighter := by
  constructor
  · refine Nat.lt_of_not_le fun isLast => ?_
    rw [List.drop_eq_nil_of_le isLast] at stands
    simp at stands
  · rw [← List.tail_drop, stands, List.tail_cons]

theorem extends_operation {operand : Parse NodeId}
    (spells : Spells (Expression.Spelled (level + 1)) Arena.expressionAt 1 operand)
    (entry : Symbol × BinaryOp) :
    Extends (operator? tier · = some entry) (Expression.Spelled level)
      (operation entry.2 operand) := by
  intro bound known state left items ready starts knows
  obtain ⟨isSign, isLevel⟩ := level_of_mem_tier stands (List.mem_of_find?_eq_some starts)
  have continues : state.continues entry.2.sign = true := by
    simpa [isSign] using List.find?_some starts
  obtain ⟨isKind, sameLine⟩ := kind_of_continues continues
  refine .bind ready (.next ready fun _ _ => by simp [isKind]) fun _ signed ready => ?_
  refine .bind ready (spells _ _ _ ready) fun right after ready => ?_
  refine .ask (.ask (.make ?_))
  rintro ⟨⟨known, _, split⟩, rightTree, spelledRight, shownRight⟩
  obtain ⟨leftTree, spelledLeft, shownLeft⟩ := knows _ known
  rw [split] at spelledLeft
  exact ⟨_, .binary isLevel spelledLeft isKind sameLine spelledRight,
    Arena.showsExpression_binary _ shownLeft shownRight⟩

end

theorem spells_tiers (tiers : List Tier)
    (isLevel : level ≤ BinaryOp.levels) (stands : Tier.all.drop level = tiers) :
    Spells (Expression.Spelled level) Arena.expressionAt 1 (Grammar.tiers inner tiers) := by
  induction tiers generalizing level with
  | nil =>
    intro bound known state ready
    obtain rfl : level = BinaryOp.levels :=
      Nat.le_antisymm isLevel (List.drop_eq_nil_iff.mp stands)
    refine .imp (spells_unary _ _ _ ready) ?_
    rintro id rest arena _ ⟨tree, spelled, shown⟩
    exact ⟨tree, .unary spelled, shown⟩
  | cons tier tighter ih =>
    intro bound known state ready
    obtain ⟨isBinary, isTighter⟩ := drop_succ_of_drop stands
    refine .bind ready (ih isBinary isTighter _ _ _ ready) ?_
    intro left after ready
    refine .ask (extends_linked (fun _ _ => rfl)
      (extends_operation stands (ih isBinary isTighter)) _ _ _ _ left state.rest ready trivial ?_)
    rintro arena ⟨_, tree, spelled, shown⟩
    exact ⟨tree, .tighter spelled, shown⟩

theorem spellsAt_letDeclaration :
    SpellsAt [.keyword .letWord, .keyword .varWord] Declaration.Spelled Arena.declarationAt 1
      (letDeclaration inner) := by
  intro bound known state ready starts
  have isItem : state.kind ≠ .finish := fun isFinish => by simp [isFinish] at starts
  refine .ask ?_
  refine .next_shorter ready isItem fun worded ready => ?_
  refine .bind ready (.name ready) fun declared named ready => ?_
  refine .bind ready (runs_optionalAscription ready) fun type typed ready => ?_
  refine .bind ready (.expect ready rfl) fun _ signed ready => ?_
  refine .bind ready (spells_expression _ _ _ ready) fun value after ready => ?_
  refine .ask ?_
  refine .bind ready (.terminator ready) fun _ last ready => ?_
  refine .make ?_
  rintro ⟨⟨⟨⟨⟨⟨_, items⟩, isName, rfl, name⟩, typeTree, ascription, shownType⟩, isSign, sign⟩,
    tree, spelled, shown⟩, terminated⟩
  rw [sign] at ascription
  rw [items, name]
  refine ⟨_, ?_, Arena.showsDeclaration_value _ shownType shown⟩
  simp only [List.mem_cons, List.not_mem_nil, or_false] at starts
  rcases starts with isLet | isVar
  · have notVar : decide (state.current.token.kind = .keyword .varWord) = false := by
      simp [show state.current.token.kind = _ from isLet]
    rw [notVar]
    exact .letValue isLet isName ascription isSign spelled terminated
  · rw [show decide (state.current.token.kind = .keyword .varWord) = true from
      decide_eq_true isVar]
    exact .varValue isVar isName ascription isSign spelled terminated

theorem spellsAt_funDeclaration :
    SpellsAt [.keyword .funWord] Declaration.Spelled Arena.declarationAt 1
      (funDeclaration inner) := by
  intro bound known state ready starts
  have isWord : state.kind = .keyword .funWord := List.mem_singleton.mp starts
  refine .ask ?_
  refine .next_shorter ready (by simp [isWord]) fun worded ready => ?_
  refine .bind ready (.name ready) fun declared named ready => ?_
  refine .bind ready (runs_parameters ready) fun found typed ready => ?_
  refine .bind ready (runs_optionalAscription ready) fun result after ready => ?_
  refine .bind ready (runs_block ready) fun body last ready => ?_
  refine .makeFrom ?_
  rintro ⟨⟨⟨⟨⟨_, items⟩, isName, rfl, name⟩, parameterTrees, parameters, shownParameters⟩,
    resultTree, ascription, shownResult⟩, bodyTree, ⟨_, spelled⟩, shownBody⟩
  rw [items, name]
  exact ⟨_, .function isWord isName parameters ascription spelled,
    Arena.showsDeclaration_function _ shownParameters shownResult shownBody⟩

theorem spellsAt_declaration :
    SpellsAt Declaration.words Declaration.Spelled Arena.declarationAt 1 (declaration inner) := by
  intro bound known state ready starts
  refine .ask ?_
  split
  · rename_i isFun
    exact spellsAt_funDeclaration _ _ _ ready (by simpa [nextIs] using isFun)
  · rename_i notFun
    refine spellsAt_letDeclaration _ _ _ ready ?_
    simp only [nextIs, decide_eq_true_eq] at notFun
    simpa [Declaration.words, notFun] using starts

theorem runs_returnStatement (ready : state.Ready bound)
    (isWord : state.kind = .keyword .returnWord) :
    Runs bound known state (returnStatement inner) fun id rest arena =>
      ∃ tree : Statement, tree.Spelled state.rest rest ∧ arena.ShowsStatement id tree := by
  refine .ask ?_
  refine .bind ready (.next ready fun _ _ => by simp [isWord]) fun _ worded ready => ?_
  refine .ask ?_
  split
  · refine .pure_bind ?_
    refine .ask ?_
    refine .bind ready (.terminator ready) fun _ last ready => ?_
    refine .make ?_
    rintro ⟨⟨_, _, items⟩, terminated⟩
    rw [items]
    exact ⟨_, .returnNothing isWord terminated, Arena.showsStatement_returnNothing _⟩
  · rename_i returnsValue
    have first := ready.rest_eq fun isFinish => returnsValue (by
      simp [returnsNothing, atFinish, isFinish])
    have sameLine : worded.current.fresh = false :=
      Bool.eq_false_iff.mpr fun isFresh => returnsValue (by simp [returnsNothing, isFresh])
    refine .bind ready (spells_expression _ _ _ ready) fun found after ready => ?_
    refine .pure_bind (.ask ?_)
    refine .bind ready (.terminator ready) fun _ last ready => ?_
    refine .make ?_
    rintro ⟨⟨⟨_, _, items⟩, tree, spelled, shown⟩, terminated⟩
    rw [first] at spelled
    rw [items, first]
    exact ⟨_, .returnValue isWord sameLine spelled terminated,
      Arena.showsStatement_returnValue _ shown⟩

theorem runs_elseBranch (ready : state.Ready bound) :
    Runs bound known state (elseBranch inner) fun id rest arena =>
      ∃ tree : ElseBranch, tree.Spelled state.rest rest ∧ arena.ShowsOtherwise id tree := by
  refine .eat ready (by decide) (fun worded ready => ?_) fun _ => ?_
  · refine .ask ?_
    split
    · rename_i isIf
      have starts : worded.kind ∈ [TokenKind.keyword .ifWord] := by simpa [nextIs] using isIf
      rw [deeper_bind]
      refine .bind ready
        (.deeper ready fun depth ready =>
            Runs.imp (phrases.conditional _ _ _ ready starts) fun _ _ _ _ found => found.1 :
          Runs bound _ worded _ fun id rest arena =>
            ∃ tree, Statement.ConditionalSpelled worded.rest tree rest ∧
              arena.ShowsConditional id tree)
        fun nested after ready => ?_
      refine .pure ?_
      rintro arena ⟨⟨_, isElse, items⟩, tree, ⟨isConditional, spelled⟩, shown⟩
      rw [items]
      exact ⟨_, .conditional isElse isConditional spelled, shown.conditionalBranch isConditional⟩
    · refine .bind ready (runs_block ready) fun found after ready => ?_
      refine .pure ?_
      rintro arena ⟨⟨_, isElse, items⟩, tree, ⟨⟨number, statements, rfl⟩, spelled⟩, shown⟩
      rw [items]
      exact ⟨_, .block isElse spelled, shown.blockBranch⟩
  · exact .pure fun arena _ => ⟨.nothing, .nothing, rfl⟩

theorem spellsAt_conditional :
    SpellsAt [.keyword .ifWord] Statement.ConditionalSpelled Arena.statementAt 1
      (conditional inner) := by
  intro bound known state ready starts
  have isWord : state.kind = .keyword .ifWord := List.mem_singleton.mp starts
  refine .ask ?_
  refine .next_shorter ready (by simp [isWord]) fun worded ready => ?_
  refine .bind ready (spells_expression _ _ _ ready) fun condition inside ready => ?_
  refine .bind ready (runs_block ready) fun thenBlock after ready => ?_
  refine .bind ready (runs_elseBranch ready) fun otherwise last ready => ?_
  refine .makeFrom ?_
  rintro ⟨⟨⟨⟨_, items⟩, conditionTree, spelledCondition, shownCondition⟩, thenTree,
    ⟨_, spelledThen⟩, shownThen⟩, otherwiseTree, spelledOtherwise, shownOtherwise⟩
  rw [items]
  exact ⟨_, ⟨rfl, .conditional isWord spelledCondition spelledThen spelledOtherwise⟩,
    Arena.showsConditional _ shownCondition shownThen shownOtherwise⟩

section

variable (ready : state.Ready bound)
include ready

theorem runs_loop
    (isWord : state.kind = .keyword .whileWord) :
    Runs bound known state (loop inner) fun id rest arena =>
      ∃ tree : Statement, tree.Spelled state.rest rest ∧ arena.ShowsStatement id tree := by
  refine .ask ?_
  refine .bind ready (.next ready fun _ _ => by simp [isWord]) fun _ worded ready => ?_
  refine .bind ready (spells_expression _ _ _ ready) fun condition inside ready => ?_
  refine .bind ready (runs_block ready) fun body last ready => ?_
  refine .makeFrom ?_
  rintro ⟨⟨⟨_, _, items⟩, conditionTree, spelledCondition, shownCondition⟩, bodyTree,
    ⟨_, spelledBody⟩, shownBody⟩
  rw [items]
  exact ⟨_, .loop isWord spelledCondition spelledBody,
    Arena.showsStatement_loop _ shownCondition shownBody⟩

theorem kind_of_kindAfter {sign : Symbol} {after : ParseState}
    (isSign : state.kindAfter = .symbol sign) (items : state.rest = state.current :: after.rest) :
    after.kind = .symbol sign := by
  rw [kindAfter, items] at isSign
  cases rest : after.rest with
  | nil => simp [rest, ready.finish] at isSign
  | cons item others => simpa [kind, current, rest] using isSign

theorem runs_assignment
    (isSign : state.kindAfter = .symbol .equal) :
    Runs bound known state (assignment inner) fun id rest arena =>
      ∃ tree : Statement, tree.Spelled state.rest rest ∧ arena.ShowsStatement id tree := by
  refine .ask ?_
  refine .bind ready (.name ready) fun target named readyNamed => ?_
  have isNext : ∀ arena,
      (known arena ∧ state.kind = .identifier ∧ target = state.current.text ∧
        state.rest = state.current :: named.rest) →
      named.kind = .symbol .equal :=
    fun _ ⟨_, _, _, items⟩ => kind_of_kindAfter ready isSign items
  refine .bind readyNamed
    (.next readyNamed fun arena known => by simp [isNext arena known]) ?_
  intro _ signed ready
  refine .bind ready (spells_expression _ _ _ ready) fun value after ready => ?_
  refine .ask ?_
  refine .bind ready (.terminator ready) fun _ last ready => ?_
  refine .make ?_
  rintro ⟨⟨⟨⟨known, isName, rfl, items⟩, _, sign⟩, tree, spelled, shown⟩, terminated⟩
  have isEqual := isNext _ ⟨known, isName, rfl, items⟩
  rw [items, sign]
  exact ⟨_, .assignment isName isEqual spelled terminated, Arena.showsStatement_assignment _ shown⟩

theorem runs_expressionStatement :
    Runs bound known state (expressionStatement inner) fun id rest arena =>
      ∃ tree : Statement, tree.Spelled state.rest rest ∧ arena.ShowsStatement id tree := by
  refine .bind ready (spells_expression _ _ _ ready) fun found after ready => ?_
  refine .ask ?_
  refine .branch ?_ ?_
  · exact .of_fault ready rfl
  · refine .ask ?_
    refine .bind ready (.terminator ready) fun _ last ready => ?_
    refine .make ?_
    rintro ⟨⟨_, tree, spelled, shown⟩, terminated⟩
    exact ⟨_, .expression spelled terminated, Arena.showsStatement_expression _ shown⟩

end

theorem ne_stray_of_spelled {items rest : List Item} {declared : Declaration}
    (spelled : declared.Spelled items rest) (id : NodeId) : declared ≠ .stray id := by
  rintro rfl
  cases spelled

theorem runs_declarationStatement {kinds : List TokenKind} {reader : Parse NodeId}
    (spells : SpellsAt kinds Declaration.Spelled Arena.declarationAt 1 reader)
    (ready : state.Ready bound) (starts : state.kind ∈ kinds) :
    Runs bound known state reader fun id rest arena =>
      ∃ tree : Statement, tree.Spelled state.rest rest ∧ arena.ShowsStatement id tree := by
  refine .imp (spells _ _ _ ready starts) ?_
  rintro id rest arena _ ⟨⟨tree, spelled, shown⟩, _⟩
  exact ⟨_, .declaration spelled, shown.statement (ne_stray_of_spelled spelled)⟩

theorem spells_statement :
    Spells Statement.Spelled Arena.statementAt 2 (statement inner) := by
  intro bound known state ready
  refine .ask ?_
  dsimp only
  split
  · rename_i isLet
    exact runs_declarationStatement spellsAt_letDeclaration ready (by simp [isLet])
  · rename_i isVar
    exact runs_declarationStatement spellsAt_letDeclaration ready (by simp [isVar])
  · rename_i isFun _
    exact runs_declarationStatement spellsAt_funDeclaration ready (by simp [isFun])
  · rename_i isReturn
    exact runs_returnStatement ready isReturn
  · rename_i isIf
    refine .imp (spellsAt_conditional _ _ _ ready (by simp [isIf])) ?_
    rintro id rest arena _ ⟨⟨tree, ⟨_, spelled⟩, shown⟩, _⟩
    exact ⟨tree, spelled, shown.conditionalStatement⟩
  · rename_i isWhile
    exact runs_loop ready isWhile
  · rename_i _ isSign
    exact runs_assignment ready isSign
  · exact runs_expressionStatement ready

end Grammar

theorem Phrases.spells_none : Phrases.none.Spells where
  tiers _ _ _ ready := .refuse ready fun _ => .tooDeep
  unary _ _ _ ready := .refuse ready fun _ => .tooDeep
  expression _ _ _ ready := .refuse ready fun _ => .tooDeep
  ascription _ _ _ ready := .refuse ready fun _ => .tooDeep
  statement _ _ _ ready := .refuse ready fun _ => .tooDeep
  conditional _ _ _ ready _ := .refuse ready fun _ => .tooDeep
  declaration _ _ _ ready _ := .refuse ready fun _ => .tooDeep

theorem Phrases.Spells.above {inner : Phrases} [inner.Spells] : inner.above.Spells where
  tiers := Grammar.spells_tiers Tier.all (Nat.zero_le _) rfl
  unary := Grammar.spells_unary
  expression := Grammar.spells_expression
  ascription := Grammar.spells_ascription
  statement := Grammar.spells_statement
  conditional := Grammar.spellsAt_conditional
  declaration := Grammar.spellsAt_declaration

instance Phrases.spells_upTo (levels : Nat) : (Phrases.upTo levels).Spells := by
  induction levels with
  | zero => exact spells_none
  | succ levels ih => exact ih.above

end Toolshed
