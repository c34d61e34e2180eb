import Toolshed.Proofs.Grammar.LegibleExpression

namespace Toolshed

/-!
# Printed statements and declarations are read

Every statement starts a line, so the one before it ends there, and so does the
brace that closes a block.
-/

variable {item : Item}

theorem Statement.itemsOfAll_eq (digits : Double → String) (trees : List Statement) :
    Statement.itemsOfAll digits trees = trees.flatMap (·.items digits true) :=
  eq_flatMap_of_cons rfl (fun _ _ => rfl) trees

theorem Statement.height_le_heightOfAll {trees : List Statement} {tree : Statement}
    (member : tree ∈ trees) : tree.height ≤ Statement.heightOfAll trees :=
  le_of_mem_of_cons (fun _ _ => rfl) member

theorem Statement.allPrintable_iff (digits : Double → String) (trees : List Statement) :
    Statement.AllPrintable digits trees ↔ ∀ tree ∈ trees, tree.Printable digits :=
  iff_forall_of_cons trivial (fun _ _ => Iff.rfl) trees

theorem Declaration.itemsOfAll_eq (digits : Double → String) (trees : List Declaration) :
    Declaration.itemsOfAll digits trees = trees.flatMap (·.items digits true) :=
  eq_flatMap_of_cons rfl (fun _ _ => rfl) trees

theorem Declaration.height_le_heightOfAll {trees : List Declaration} {tree : Declaration}
    (member : tree ∈ trees) : tree.height ≤ Declaration.heightOfAll trees :=
  le_of_mem_of_cons (fun _ _ => rfl) member

structure StartsLine (item : Item) : Prop where
  fresh : item.fresh = true
  kind : (item.kind.startsExpression || ParseState.startsStatement item.kind) = true

theorem StartsLine.kind_ne {kind : TokenKind} (starts : StartsLine item)
    (other : (kind.startsExpression || ParseState.startsStatement kind) = false) :
    item.kind ≠ kind := by
  rintro rfl
  exact absurd (other.symm.trans starts.kind) (by decide)

theorem StartsLine.endsLine (starts : StartsLine item) : item.EndsLine :=
  ⟨.inl starts.fresh, starts.kind_ne rfl, starts.kind_ne rfl, starts.kind_ne rfl⟩

theorem endsLine_rightBrace : (Item.symbol true .rightBrace).EndsLine :=
  ⟨.inl rfl, by simp, by simp, by simp⟩

theorem Statement.exists_items {digits : Double → String} {statement : Statement}
    (printable : statement.Printable digits) :
    ∃ item others, statement.items digits true = item :: others ∧ StartsLine item := by
  match statement with
  | .declaration (.value _ mutable _ _ _) =>
    exact ⟨_, _, rfl, rfl, by cases mutable <;> rfl⟩
  | .declaration (.function _ _ _ _ _) => exact ⟨_, _, rfl, rfl, rfl⟩
  | .declaration (.classType _ _ _ _) => exact printable.elim
  | .declaration (.stray _) => exact printable.elim
  | .expression _ value =>
    obtain ⟨item, others, printed, starts⟩ := value.exists_items printable true
    exact ⟨item, others, printed, starts.fresh, by simp [starts.kind]⟩
  | .returnNothing _ => exact ⟨_, _, rfl, rfl, rfl⟩
  | .returnValue _ _ => exact ⟨_, _, rfl, rfl, rfl⟩
  | .conditional _ _ _ _ => exact ⟨_, _, rfl, rfl, rfl⟩
  | .loop _ _ _ => exact ⟨_, _, rfl, rfl, rfl⟩
  | .assignment _ _ _ => exact ⟨_, _, rfl, rfl, rfl⟩
  | .stray _ => exact printable.elim

def Statement.Legible (digits : Double → String) (statement : Statement) : Prop :=
  ∀ {room levels : Nat} {state : ParseState} {rest : List Item} {fresh : Bool},
    2 * statement.height ≤ room →
    maxNesting ≤ levels + state.depth →
    (state.following rest).EndsLine →
    state.rest = statement.items digits fresh ++ rest →
    Parse.ReadsTo room state (Grammar.statement (.upTo levels)) rest
      (Arena.FindsStatement statement)

def Statement.ConditionalLegible (digits : Double → String) (statement : Statement) : Prop :=
  ∀ {room levels : Nat} {state : ParseState} {rest : List Item} {fresh : Bool},
    2 * statement.height ≤ room →
    maxNesting ≤ levels + state.depth →
    (state.following rest).kind ≠ .keyword .elseWord →
    state.rest = statement.items digits fresh ++ rest →
    Parse.ReadsTo room state (Grammar.conditional (.upTo levels)) rest
      (Arena.FindsConditional statement)

def ElseBranch.Legible (digits : Double → String) : ElseBranch → Prop
  | .nothing => True
  | .block body => body.Legible digits
  | .statement nested => nested.ConditionalLegible digits

def Declaration.Legible (digits : Double → String) (declared : Declaration) : Prop :=
  ∀ {room levels : Nat} {state : ParseState} {rest : List Item} {fresh : Bool},
    2 * declared.height ≤ room →
    maxNesting ≤ levels + state.depth →
    (state.following rest).EndsLine →
    state.rest = declared.items digits fresh ++ rest →
    Parse.ReadsTo room state (Grammar.declaration (.upTo levels)) rest
      (Arena.FindsDeclaration declared)

namespace Grammar

open Parse ParseState

variable {room levels : Nat} {state : ParseState} {rest : List Item}
variable {digits : Double → String}
variable {γ : Type} {slack : Nat} {phrase : Parse NodeId} {mutable fresh : Bool} {name : String}
variable {type result : Option TypeExpression} {initial value condition : Expression}
variable {parameters : List Parameter} {body : Block} {otherwise : ElseBranch}
variable {print : γ → List Item} {trees : List γ} {read : Arena → Nat → NodeId → γ}

theorem gets_terminator (ends : (state.following rest).EndsLine) (items : state.rest = rest) :
    Gets state terminator rest fun _ _ => True := by
  rw [← current_of_rest items] at ends
  exact .terminator items ends.notSemicolon ends.fresh

theorem following_lines {suits : Item → Prop}
    (starts : ∀ tree ∈ trees, ∃ item others, print tree = item :: others ∧ StartsLine item)
    (line : ∀ item, StartsLine item → suits item) (last : suits (state.following rest)) :
    suits (state.following (trees.flatMap print ++ rest)) := by
  cases trees with
  | nil => exact last
  | cons first others =>
    obtain ⟨item, more, printed, startsFirst⟩ := starts first List.mem_cons_self
    rw [List.flatMap_cons, printed]
    exact line item startsFirst

attribute [local simp] nextIs

section

variable (starts : ∀ tree ∈ trees, ∃ item others, print tree = item :: others ∧ StartsLine item)
include starts

theorem readsTo_statementsUpTo {erase : γ → γ} [Uniform phrase]
    (each :
      ∀ tree ∈ trees, ∀ (state' : ParseState) (others : List Item),
        state'.rest = print tree ++ others →
        state'.depth = state.depth →
        (state'.following others).EndsLine →
        ReadsTo room state' phrase others (Arena.Finds read slack erase tree))
    (fuel : Nat) (enough : trees.length ≤ fuel)
    (items : state.rest = trees.flatMap print ++ Item.symbol true .rightBrace :: rest) :
    ReadsTo room state (statementsUpTo phrase fuel) (.symbol true .rightBrace :: rest)
      (Arena.FindsAll read slack erase trees) := by
  induction trees generalizing state fuel with
  | nil =>
    cases fuel with
    | zero => exact .pure items .nil
    | succ fuel =>
      refine .ask ?_
      rw [if_pos (by simp [kind_eq items])]
      exact .pure items .nil
  | cons first others ih =>
    obtain ⟨fuel, rfl⟩ : ∃ less, fuel = less + 1 :=
      Nat.exists_eq_add_one_of_ne_zero (Nat.ne_of_gt (Nat.lt_of_lt_of_le (by simp) enough))
    rw [List.flatMap_cons, List.append_assoc] at items
    obtain ⟨item, more, printed, startsFirst⟩ := starts first List.mem_cons_self
    have isNext := kind_eq (items.trans (congrArg (· ++ _) printed))
    have notBrace : item.kind ≠ .symbol .rightBrace := startsFirst.kind_ne rfl
    have notFinish : item.kind ≠ .finish := startsFirst.kind_ne rfl
    refine .ask ?_
    rw [if_neg (by simp [atFinish, isNext, notBrace, notFinish])]
    refine .ask ?_
    refine .attempt (each first List.mem_cons_self state _ items rfl ?_) ?_
    · exact following_lines (fun tree member => starts tree (List.mem_cons_of_mem _ member))
        (fun _ starts => starts.endsLine) endsLine_rightBrace
    intro node after passes finds
    refine .bind (ih
      (fun tree member => starts tree (List.mem_cons_of_mem _ member))
      (fun tree member state' more shape same =>
        each tree (List.mem_cons_of_mem _ member) state' more shape (same.trans passes.depth))
      fuel (Nat.le_of_succ_le_succ enough) passes.rest) ?_
    intro ids last further findsAll
    exact .pure further.rest (.cons (finds.mono further.within) findsAll)

theorem length_le_flatMap :
    trees.length ≤ (trees.flatMap print).length := by
  induction trees with
  | nil => simp
  | cons first others ih =>
    obtain ⟨item, more, printed, _⟩ := starts first List.mem_cons_self
    have later := ih fun tree member =>
      starts tree (List.mem_cons_of_mem _ member)
    rw [List.flatMap_cons, List.length_append, printed, List.length_cons, List.length_cons]
    omega

theorem readsTo_statements {erase : γ → γ} [Uniform phrase]
    (each :
      ∀ tree ∈ trees, ∀ (state' : ParseState) (others : List Item),
        state'.rest = print tree ++ others →
        state'.depth = state.depth →
        (state'.following others).EndsLine →
        ReadsTo room state' phrase others (Arena.Finds read slack erase tree))
    (items : state.rest = trees.flatMap print ++ Item.symbol true .rightBrace :: rest) :
    ReadsTo room state (statements phrase) (.symbol true .rightBrace :: rest)
      (Arena.FindsAll read slack erase trees) := by
  have enough := length_le_flatMap starts
  refine .ask (readsTo_statementsUpTo starts each _ ?_ items)
  rw [items, List.length_append]
  omega

end

theorem legible_block (id : NodeId) {trees : List Statement}
    (printable : ∀ tree ∈ trees, tree.Printable digits)
    (legible : ∀ tree ∈ trees, tree.Legible digits) :
    (Block.statements id trees).Legible digits := by
  intro room levels state rest spare enough items
  rw [Block.items, Statement.itemsOfAll_eq, List.cons_append, List.append_assoc] at items
  rw [Block.height] at spare
  have less : ∀ tree ∈ trees, 2 * tree.height ≤ room - 1 := by
    intro tree member
    have within := Statement.height_le_heightOfAll member
    omega
  refine .ask (.pass (.expect items rfl) fun _ opened passed _ => ?_)
  have inside : ReadsTo room opened (deeper (statements (Phrases.upTo levels).statement))
      (.symbol true .rightBrace :: rest)
      (Arena.FindsAll Arena.statementAt 2 Statement.unnumbered trees) := by
    refine .deeper (by omega) (passed.depth ▸ enough) ?_
    rintro level rfl deep
    exact readsTo_statements (fun tree member => tree.exists_items (printable tree member))
      (fun tree member state' others shape same ends =>
        legible tree member (less tree member) (same ▸ deep) ends shape) passed.rest
  rw [deeper_statements]
  refine .bind inside fun ids listed further findsAll => ?_
  refine .pass (.expect further.rest rfl) fun _ closed onward _ => ?_
  exact .makeFrom onward.rest fun range =>
    Arena.findsBlock range id (findsAll.mono onward.within)

theorem readsTo_letDeclaration (id : NodeId) (printable : ∀ written ∈ type, written.Printable)
    (legible : initial.Legible digits)
    (spare : 2 * (Declaration.value id mutable name type initial).height ≤ room)
    (enough : maxNesting ≤ levels + state.depth) (ends : (state.following rest).EndsLine)
    (items : state.rest =
      (Declaration.value id mutable name type initial).items digits fresh ++ rest) :
    ReadsTo room state (letDeclaration (.upTo levels)) rest
      (Arena.FindsDeclaration (.value id mutable name type initial)) := by
  rw [Declaration.items, List.cons_append, List.cons_append, List.append_assoc] at items
  rw [Declaration.height] at spare
  refine .ask (.pass (.next items) ?_)
  rintro _ opened passed rfl
  refine .pass (.name passed.rest rfl) ?_
  rintro _ named further rfl
  have deep : maxNesting ≤ levels + named.depth := (further.depth.trans passed.depth) ▸ enough
  refine .bind (readsTo_ascription printable (by omega) deep (by simp [ParseState.following])
    further.rest) ?_
  intro typeId typed past findsType
  refine .pass (.expect past.rest rfl) fun _ assigned onward _ => ?_
  have endsHere : (assigned.following rest).EndsLine := by
    rwa [onward.following_eq, past.following_eq, further.following_eq, passed.following_eq]
  refine .bind (legible (by omega) ((onward.depth.trans past.depth) ▸ deep)
    (endsHere.halts _) onward.rest) ?_
  intro valueId read ahead findsValue
  refine .ask (.pass (gets_terminator (ahead.following_eq rest ▸ endsHere)
    ahead.rest) fun _ terminated final _ => ?_)
  have isMutable : (decide ((Item.word fresh (.ofMutable mutable)).token.kind =
      .keyword .varWord)) = mutable := by
    cases mutable <;> rfl
  rw [isMutable]
  have within := onward.within.trans (ahead.within.trans final.within)
  exact .make final.rest (Arena.findsDeclaration_value _ id (findsType.mono within)
    (findsValue.mono final.within))

theorem readsTo_funDeclaration (id : NodeId) (printable : PrintableSignature parameters result)
    (printableBody : body.Printable digits) (legible : body.Legible digits)
    (spare : 2 * (Declaration.function id name parameters result body).height ≤ room)
    (enough : maxNesting ≤ levels + state.depth)
    (items : state.rest =
      (Declaration.function id name parameters result body).items digits fresh ++ rest) :
    ReadsTo room state (funDeclaration (.upTo levels)) rest
      (Arena.FindsDeclaration (.function id name parameters result body)) := by
  rw [Declaration.items, List.cons_append, List.cons_append, List.append_assoc,
    List.append_assoc] at items
  rw [Declaration.height] at spare
  have spareResult : 2 * TypeExpression.ascriptionHeight result ≤ room := by
    rw [signatureHeight] at spare
    omega
  obtain ⟨others, printed⟩ := exists_block_items printableBody
  refine .ask (.pass (.next items) ?_)
  rintro _ opened passed rfl
  refine .pass (.name passed.rest rfl) ?_
  rintro _ named further rfl
  have deep : maxNesting ≤ levels + named.depth := (further.depth.trans passed.depth) ▸ enough
  refine .bind (readsTo_parameters printable (by omega) deep further.rest) ?_
  intro ids listed past findsAll
  refine .bind (readsTo_ascription printable.result spareResult (past.depth ▸ deep)
    (by simp [ParseState.following, printed]) past.rest) ?_
  intro typeId typed onward findsResult
  refine .bind (legible (by omega) ((onward.depth.trans past.depth) ▸ deep)
    onward.rest) ?_
  intro bodyId read ahead findsBody
  exact .makeFrom ahead.rest fun range =>
    Arena.findsDeclaration_function range id (findsAll.mono (onward.within.trans ahead.within))
      (findsResult.mono ahead.within) findsBody

theorem legible_value (id : NodeId) (printable : ∀ written ∈ type, written.Printable)
    (legible : initial.Legible digits) :
    (Declaration.value id mutable name type initial).Legible digits ∧
      (Statement.declaration (.value id mutable name type initial)).Legible digits := by
  constructor
  · intro room levels state rest fresh spare enough ends items
    refine .ask ?_
    rw [if_neg (by cases mutable <;> simp [kind_eq (items.trans rfl), Keyword.ofMutable])]
    exact readsTo_letDeclaration id printable legible spare enough ends items
  · intro room levels state rest fresh spare enough ends items
    have reads := readsTo_letDeclaration id printable legible spare enough ends items
    refine .ask ?_
    rw [kind_eq (items.trans rfl)]
    cases mutable <;> exact reads.imp fun _ _ finds => finds.statement (by simp)

theorem legible_functionDeclaration (id : NodeId)
    (printable : PrintableSignature parameters result) (printableBody : body.Printable digits)
    (legible : body.Legible digits) :
    (Declaration.function id name parameters result body).Legible digits ∧
      (Statement.declaration (.function id name parameters result body)).Legible digits := by
  constructor
  · intro room levels state rest fresh spare enough _ items
    refine .ask ?_
    rw [if_pos (by simp [kind_eq (items.trans rfl)])]
    exact readsTo_funDeclaration id printable printableBody legible spare enough items
  · intro room levels state rest fresh spare enough _ items
    have reads := readsTo_funDeclaration id printable printableBody legible spare enough items
    have isName : state.kindAfter = .identifier := by
      rw [ParseState.kindAfter, items]
      rfl
    refine .ask ?_
    rw [kind_eq (items.trans rfl), isName]
    exact reads.imp fun _ _ finds => finds.statement (by simp)

theorem legible_returnNothing (id : NodeId) : (Statement.returnNothing id).Legible digits := by
  intro room levels state rest fresh spare enough ends items
  refine .ask ?_
  rw [kind_eq (items.trans rfl)]
  refine .ask (.pass (.next items) ?_)
  rintro _ after passes rfl
  have endsHere : after.current.EndsLine := by
    rw [current_of_rest passes.rest]
    exact passes.following_eq rest ▸ ends
  have nothing : returnsNothing after = true := by
    rcases endsHere.fresh with isFresh | isFinish
    · simp [returnsNothing, isFresh]
    · simp [returnsNothing, atFinish, kind, isFinish]
  refine .ask ?_
  rw [if_pos nothing]
  refine .step rfl (.refl after) (.ask ?_)
  refine .pass (gets_terminator (passes.following_eq rest ▸ ends) passes.rest) ?_
  intro _ terminated further _
  exact .make further.rest (Arena.findsStatement_returnNothing _ id)

theorem legible_returnValue (id : NodeId) (printable : value.Printable digits)
    (legible : value.Legible digits) : (Statement.returnValue id value).Legible digits := by
  intro room levels state rest fresh spare enough ends items
  rw [Statement.height] at spare
  obtain ⟨item, others, printed, starts⟩ := value.exists_items printable false
  refine .ask ?_
  rw [kind_eq items]
  refine .ask (.pass (.next items) ?_)
  rintro _ after passes rfl
  have something : returnsNothing after = false := by
    have next := passes.rest.trans (congrArg (· ++ rest) printed)
    have kind_ne : ∀ {kind : TokenKind}, kind.startsExpression = false → item.kind ≠ kind := by
      rintro kind other rfl
      exact absurd (other.symm.trans starts.kind) (by decide)
    have notSemicolon : item.kind ≠ .symbol .semicolon := kind_ne rfl
    have notBrace : item.kind ≠ .symbol .rightBrace := kind_ne rfl
    have notFinish : item.kind ≠ .finish := kind_ne rfl
    simp [returnsNothing, atFinish, kind_eq next, current_eq next, starts.fresh, notSemicolon,
      notBrace, notFinish]
  refine .ask ?_
  rw [if_neg (by simp [something])]
  have endsHere : (after.following rest).EndsLine := passes.following_eq rest ▸ ends
  refine .bind (legible (by omega) (passes.depth ▸ enough) (endsHere.halts _)
    passes.rest) ?_
  intro found read further finds
  refine .step rfl (.refl read) (.ask ?_)
  refine .pass (gets_terminator (further.following_eq rest ▸ endsHere) further.rest) ?_
  intro _ terminated onward _
  exact .make onward.rest
    (Arena.findsStatement_returnValue _ id (finds.mono onward.within))

theorem legible_assignment (id : NodeId) {target : String} (legible : value.Legible digits) :
    (Statement.assignment id target value).Legible digits := by
  intro room levels state rest fresh spare enough ends items
  rw [Statement.height] at spare
  have isAssigned : state.kindAfter = .symbol .equal := by
    rw [ParseState.kindAfter, items]
    rfl
  refine .ask ?_
  rw [kind_eq items, isAssigned]
  refine .ask (.pass (.name items rfl) ?_)
  rintro _ named passed rfl
  refine .pass (.next passed.rest) ?_
  rintro _ assigned further rfl
  have endsHere : (assigned.following rest).EndsLine := by
    rwa [further.following_eq, passed.following_eq]
  refine .bind (legible (by omega) ((further.depth.trans passed.depth) ▸ enough)
    (endsHere.halts _) further.rest) ?_
  intro valueId read past findsValue
  refine .ask (.pass (gets_terminator (past.following_eq rest ▸ endsHere)
    past.rest) fun _ terminated onward _ => ?_)
  exact .make onward.rest
    (Arena.findsStatement_assignment _ id (findsValue.mono onward.within))

theorem legible_loop (id : NodeId) (printableBody : body.Printable digits)
    (legible : condition.Legible digits) (legibleBody : body.Legible digits) :
    (Statement.loop id condition body).Legible digits := by
  intro room levels state rest fresh spare enough ends items
  rw [Statement.items, List.cons_append, List.append_assoc] at items
  rw [Statement.height] at spare
  obtain ⟨others, printed⟩ := exists_block_items printableBody
  refine .ask ?_
  rw [kind_eq items]
  refine .ask (.pass (.next items) ?_)
  rintro _ opened passed rfl
  refine .bind (legible (by omega) (passed.depth ▸ enough) ?_ passed.rest) ?_
  · rw [printed]
    exact Item.symbol_halts _ (by decide)
  intro conditionId read further findsCondition
  refine .bind (legibleBody (by omega) ((further.depth.trans passed.depth) ▸ enough)
    further.rest) ?_
  intro bodyId last past findsBody
  exact .makeFrom past.rest fun range =>
    Arena.findsStatement_loop range id (findsCondition.mono past.within) findsBody

theorem legible_expressionStatement (id : NodeId) {expression : Expression}
    (printable : expression.Printable digits) (legible : expression.Legible digits) :
    (Statement.expression id expression).Legible digits := by
  intro room levels state rest fresh spare enough ends items
  rw [Statement.height] at spare
  obtain ⟨item, others, printed, starts⟩ := expression.exists_items printable fresh
  have reads : ReadsTo room state (expressionStatement (.upTo levels)) rest
      (Arena.FindsStatement (.expression id expression)) := by
    refine .bind (legible (by omega) enough (ends.halts _) items) ?_
    intro found after passes finds
    have endsHere : (after.following rest).EndsLine := passes.following_eq rest ▸ ends
    have notTarget : after.nextIs (.symbol .equal) = false := by
      simp [kind_of_rest passes.rest, endsHere.notEqual]
    refine .ask ?_
    rw [notTarget]
    refine .ask (.pass (gets_terminator endsHere passes.rest) ?_)
    intro _ terminated further _
    exact .make further.rest
      (Arena.findsStatement_expression _ id (finds.mono further.within))
  have next := items.trans (congrArg (· ++ rest) printed)
  have kind_ne : ∀ {kind : TokenKind}, kind.startsExpression = false → state.kind ≠ kind := by
    intro kind other same
    rw [kind_eq next] at same
    exact absurd (other.symm.trans (same ▸ starts.kind)) (by decide)
  have unassigned : state.kind = .identifier → state.kindAfter ≠ .symbol .equal := by
    rw [kind_eq next, ParseState.kindAfter, next]
    intro isName
    cases others with
    | nil => exact ends.notEqual
    | cons second more => exact starts.unassigned isName second rfl
  have nameless : state.kind = .keyword .funWord → state.kindAfter ≠ .identifier := by
    rw [kind_eq next, ParseState.kindAfter, next]
    intro isWord
    obtain ⟨more, rfl⟩ := starts.nameless isWord
    simp
  refine .ask ?_
  dsimp only
  split
  case h_8 => exact reads
  case h_3 isWord isName => exact (nameless isWord isName).elim
  case h_7 isName isEqual => exact (unassigned isName isEqual).elim
  all_goals
    rename_i isWord
    exact (kind_ne rfl isWord).elim

theorem exists_conditional_items (digits : Double → String) {statement : Statement}
    (isConditional : statement.isConditional = true) :
    ∃ others, statement.items digits false = Item.word false .ifWord :: others := by
  match statement with
  | .conditional .. => exact ⟨_, rfl⟩

theorem readsTo_elseBranch (printable : otherwise.Printable digits)
    (legible : otherwise.Legible digits) (spare : 2 * otherwise.height < room)
    (enough : maxNesting ≤ levels + state.depth)
    (following : (state.following rest).kind ≠ .keyword .elseWord)
    (items : state.rest = otherwise.items digits ++ rest) :
    ReadsTo room state (elseBranch (.upTo levels)) rest (Arena.FindsOtherwise otherwise) := by
  cases otherwise with
  | nothing =>
    refine .pass (.eat_nothing items (kind_of_rest items ▸ following)) ?_
    rintro _ after passes rfl
    exact .pure passes.rest ⟨.nothing, rfl, rfl⟩
  | block block =>
    refine .pass (.eat items rfl) ?_
    rintro _ after passes rfl
    obtain ⟨others, printed⟩ := exists_block_items printable
    have opens := passes.rest.trans (congrArg (· ++ rest) printed)
    refine .ask ?_
    rw [if_neg (by simp [kind_eq opens])]
    rw [ElseBranch.height] at spare
    refine .bind (legible (by omega) (passes.depth ▸ enough) passes.rest) ?_
    intro id last further finds
    cases block with
    | statements number trees => exact .pure further.rest finds.otherwiseBlock
    | stray number => exact printable.elim
  | statement nested =>
    refine .pass (.eat items rfl) ?_
    rintro _ after passes rfl
    obtain ⟨others, printed⟩ := exists_conditional_items digits printable.1
    have opens := passes.rest.trans (congrArg (· ++ rest) printed)
    refine .ask ?_
    rw [if_pos (by simp [kind_eq opens])]
    rw [ElseBranch.height] at spare
    have inside : ReadsTo room after (deeper (Phrases.upTo levels).conditional) rest
        (Arena.FindsConditional nested) := by
      refine .deeper (by omega) (passes.depth ▸ enough) ?_
      rintro level rfl deep
      exact legible (by omega) deep (passes.following_eq rest ▸ following) passes.rest
    rw [deeper_bind]
    refine .bind inside fun id last further finds => ?_
    exact .pure further.rest (finds.otherwise printable.1)

theorem legible_conditional (id : NodeId) {thenBlock : Block}
    (printableThen : thenBlock.Printable digits) (printableOtherwise : otherwise.Printable digits)
    (legible : condition.Legible digits) (legibleThen : thenBlock.Legible digits)
    (legibleOtherwise : otherwise.Legible digits) :
    (Statement.conditional id condition thenBlock otherwise).ConditionalLegible digits ∧
      (Statement.conditional id condition thenBlock otherwise).Legible digits := by
  have legibleConditional :
      (Statement.conditional id condition thenBlock otherwise).ConditionalLegible digits := by
    intro room levels state rest fresh spare enough following items
    rw [Statement.items, List.cons_append, List.append_assoc, List.append_assoc] at items
    rw [Statement.height] at spare
    obtain ⟨others, printed⟩ := exists_block_items printableThen
    refine .ask (.pass (.next items) ?_)
    rintro _ opened passed rfl
    refine .bind (legible (by omega) (passed.depth ▸ enough) ?_ passed.rest) ?_
    · rw [printed]
      exact Item.symbol_halts _ (by decide)
    intro conditionId read further findsCondition
    have deep : maxNesting ≤ levels + read.depth := (further.depth.trans passed.depth) ▸ enough
    refine .bind (legibleThen (by omega) deep further.rest) ?_
    intro thenId closed past findsThen
    refine .bind (readsTo_elseBranch printableOtherwise legibleOtherwise (by omega)
      (past.depth ▸ deep) ?_ past.rest) ?_
    · rwa [past.following_eq, further.following_eq, passed.following_eq]
    intro otherwiseId last onward findsOtherwise
    exact .makeFrom onward.rest fun range =>
      Arena.findsConditional range id (findsCondition.mono (past.within.trans onward.within))
        (findsThen.mono onward.within) findsOtherwise
  refine ⟨legibleConditional, ?_⟩
  intro room levels state rest fresh spare enough ends items
  have reads := legibleConditional spare enough ends.notElse items
  refine .ask ?_
  rw [kind_eq (items.trans rfl)]
  exact reads.imp fun _ _ finds => finds.conditionalStatement

end Grammar

open Grammar in
section

variable {digits : Double → String}

mutual

theorem Expression.legible :
    (expression : Expression) →
    expression.Printable digits →
    expression.Legible digits ∧ expression.OperandLegible digits
  | .number id _, printable =>
    legible_and_operand_of_word printable rfl (operandLegible_number id printable)
  | .string id value, printable =>
    legible_and_operand_of_word printable rfl (operandLegible_string id value)
  | .boolean id value, printable =>
    legible_and_operand_of_word printable rfl (operandLegible_boolean id value)
  | .unit id, printable =>
    legible_and_operand_of_word printable rfl (operandLegible_unit id)
  | .identifier id name, printable =>
    legible_and_operand_of_word printable rfl (operandLegible_identifier id name)
  | .binary id operator left right, printable =>
    legible_and_operand printable rfl (tiersLegible_binary id operator printable.1 printable.2
      (Expression.legible left printable.1).2 (Expression.legible right printable.2).2)
  | .unary id operator operand, printable =>
    legible_and_operand printable rfl (tiersLegible_unary id operator operand printable
      (Expression.legible operand printable).2)
  | .call id callee arguments, printable =>
    legible_and_operand printable rfl (tiersLegible_call id printable.1
      (Expression.legible callee printable.1).2
      ((Expression.allPrintable_iff digits arguments).mp printable.2)
      (Expression.legible_of_all arguments printable.2))
  | .member id object name, printable =>
    legible_and_operand printable rfl (tiersLegible_member id object name printable
      (Expression.legible object printable).2)
  | .lambda id _ _ body, printable =>
    legible_and_operand printable rfl (tiersLegible_lambda id printable.1 printable.2
      (LambdaBody.legible body printable.2))
  | .stray _, printable => printable.elim

theorem Expression.legible_of_all :
    (trees : List Expression) →
    Expression.AllPrintable digits trees →
    ∀ tree ∈ trees, tree.Legible digits
  | [], _ => by simp
  | first :: rest, printable =>
    List.forall_mem_cons.mpr
      ⟨(Expression.legible first printable.1).1, Expression.legible_of_all rest printable.2⟩

theorem LambdaBody.legible :
    (body : LambdaBody) →
    body.Printable digits →
    body.Legible digits
  | .expression body, printable => (Expression.legible body printable).1
  | .block body, printable => Block.legible body printable

theorem Block.legible :
    (block : Block) →
    block.Printable digits →
    block.Legible digits
  | .statements id statements, printable =>
    legible_block id ((Statement.allPrintable_iff digits statements).mp printable)
      (Statement.legible_of_all statements printable)
  | .stray _, printable => printable.elim

theorem Statement.legible_of_all :
    (trees : List Statement) →
    Statement.AllPrintable digits trees →
    ∀ tree ∈ trees, tree.Legible digits
  | [], _ => by simp
  | first :: rest, printable =>
    List.forall_mem_cons.mpr
      ⟨(Statement.legible first printable.1).2, Statement.legible_of_all rest printable.2⟩

theorem Statement.legible :
    (statement : Statement) →
    statement.Printable digits →
    (statement.isConditional = true → statement.ConditionalLegible digits) ∧
      statement.Legible digits
  | .declaration declared, printable => ⟨nofun, (Declaration.legible declared printable).2⟩
  | .expression id value, printable =>
    ⟨nofun, legible_expressionStatement id printable (Expression.legible value printable).1⟩
  | .returnNothing id, _ => ⟨nofun, legible_returnNothing id⟩
  | .returnValue id value, printable =>
    ⟨nofun, legible_returnValue id printable (Expression.legible value printable).1⟩
  | .conditional id condition thenBlock otherwise, printable =>
    have both := legible_conditional id printable.2.1 printable.2.2
      (Expression.legible condition printable.1).1 (Block.legible thenBlock printable.2.1)
      (ElseBranch.legible otherwise printable.2.2)
    ⟨fun _ => both.1, both.2⟩
  | .loop id condition body, printable =>
    ⟨nofun, legible_loop id printable.2 (Expression.legible condition printable.1).1
      (Block.legible body printable.2)⟩
  | .assignment id _ value, printable =>
    ⟨nofun, legible_assignment id (Expression.legible value printable).1⟩
  | .stray _, printable => printable.elim

theorem ElseBranch.legible :
    (otherwise : ElseBranch) →
    otherwise.Printable digits →
    otherwise.Legible digits
  | .nothing, _ => trivial
  | .block body, printable => Block.legible body printable
  | .statement nested, printable => (Statement.legible nested printable.2).1 printable.1

theorem Declaration.legible :
    (declared : Declaration) →
    declared.Printable digits →
    declared.Legible digits ∧ (Statement.declaration declared).Legible digits
  | .value id _ _ _ initial, printable =>
    legible_value id printable.1 (Expression.legible initial printable.2).1
  | .function id _ _ _ body, printable =>
    legible_functionDeclaration id printable.1 printable.2 (Block.legible body printable.2)
  | .classType _ _ _ _, printable => printable.elim
  | .stray _, printable => printable.elim

end

end

end Toolshed
