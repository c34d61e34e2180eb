import Toolshed.Proofs.Grammar.Legible

namespace Toolshed

/-!
# Printed expressions are read

What follows an expression decides where it ends: no symbol after it may carry it
on. A binary operator ends the operand before it at every tighter tier, and its
own tier takes it.
-/

variable {more : List Item} {digits : Double → String} {operand : Expression}

theorem Expression.itemsOfAll_eq (digits : Double → String) (trees : List Expression) :
    Expression.itemsOfAll digits trees = trees.map (·.items digits false) :=
  eq_map_of_cons rfl (fun _ _ => rfl) trees

theorem Expression.allPrintable_iff (digits : Double → String) (trees : List Expression) :
    Expression.AllPrintable digits trees ↔ ∀ tree ∈ trees, tree.Printable digits :=
  iff_forall_of_cons trivial (fun _ _ => Iff.rfl) trees

theorem Expression.height_le_heightOfAll {trees : List Expression} {tree : Expression}
    (member : tree ∈ trees) : tree.height ≤ Expression.heightOfAll trees :=
  le_of_mem_of_cons (fun _ _ => rfl) member

def TokenKind.startsOperand : TokenKind → Bool
  | .number | .string | .identifier => true
  | .keyword .trueWord | .keyword .falseWord => true
  | .symbol .leftParen => true
  | _ => false

def TokenKind.startsExpression (kind : TokenKind) : Bool :=
  kind.startsOperand || kind = .keyword .funWord || kind = .symbol .minus || kind = .symbol .bang

structure StartsExpression (fresh : Bool) (item : Item) (others : List Item) : Prop where
  fresh : item.fresh = fresh
  kind : item.kind.startsExpression = true
  unassigned : item.kind = .identifier → ∀ next ∈ others.head?, next.kind ≠ .symbol .equal
  nameless : item.kind = .keyword .funWord → ∃ more, others = Item.symbol false .leftParen :: more

structure StartsOperand (fresh : Bool) (item : Item) (others : List Item) : Prop where
  fresh : item.fresh = fresh
  kind : item.kind.startsOperand = true
  alone : item.kind = .identifier → others = []

theorem StartsOperand.expression {fresh : Bool} {item : Item} {others : List Item}
    (starts : StartsOperand fresh item others)
    (unassigned : ∀ next ∈ more.head?, next.kind ≠ .symbol .equal) :
    StartsExpression fresh item (others ++ more) where
  fresh := starts.fresh
  kind := by simp [TokenKind.startsExpression, starts.kind]
  unassigned isName := by rwa [starts.alone isName]
  nameless isWord := by simpa [isWord, TokenKind.startsOperand] using starts.kind

theorem Expression.exists_operand (printable : operand.Printable digits) (fresh : Bool) :
    ∃ item others,
      Item.enclosed operand.isCompound fresh (operand.items digits ·) = item :: others ∧
        StartsOperand fresh item others := by
  cases operand with
  | boolean id value => cases value <;> exact ⟨_, _, rfl, rfl, rfl, nofun⟩
  | identifier id name => exact ⟨_, _, rfl, rfl, rfl, fun _ => rfl⟩
  | stray id => exact printable.elim
  | _ => exact ⟨_, _, rfl, rfl, rfl, nofun⟩

theorem Expression.exists_of_operand (printable : operand.Printable digits) (fresh : Bool)
    (unassigned : ∀ next ∈ more.head?, next.kind ≠ .symbol .equal) :
    ∃ item others,
      Item.enclosed operand.isCompound fresh (operand.items digits ·) ++ more = item :: others ∧
        StartsExpression fresh item others := by
  obtain ⟨item, others, printed, starts⟩ := exists_operand printable fresh
  exact ⟨item, others ++ more, by rw [printed, List.cons_append], starts.expression unassigned⟩

theorem Expression.exists_items {expression : Expression}
    (printable : expression.Printable digits) (fresh : Bool) :
    ∃ item others,
      expression.items digits fresh = item :: others ∧ StartsExpression fresh item others := by
  cases expression with
  | binary id operator left right =>
    refine exists_of_operand printable.1 fresh ?_
    cases operator <;> simp [BinaryOp.sign]
  | call id callee arguments =>
    exact exists_of_operand printable.1 fresh (by simp)
  | member id object name =>
    exact exists_of_operand (show object.Printable digits from printable) fresh (by simp)
  | unary id operator operand =>
    refine ⟨_, _, rfl, rfl, ?_, nofun, nofun⟩
    cases operator <;> rfl
  | lambda id parameters result body =>
    exact ⟨_, _, rfl, rfl, rfl, nofun, fun _ => ⟨_, rfl⟩⟩
  | stray id => exact printable.elim
  | _ =>
    obtain ⟨item, others, printed, starts⟩ := exists_operand printable fresh
    have whole : StartsExpression fresh item (others ++ []) := starts.expression (by simp)
    rw [List.append_nil] at whole
    exact ⟨item, others, printed, whole⟩

theorem Expression.height_pos (expression : Expression) : 0 < expression.height := by
  cases expression <;> rw [Expression.height] <;> omega

def Expression.OperandLegible (digits : Double → String) (expression : Expression) : Prop :=
  ∀ {room levels : Nat} {state : ParseState} {rest : List Item} {fresh : Bool},
    (expression.isCompound = true → 2 * expression.height ≤ room) →
    maxNesting ≤ levels + state.depth →
    state.rest = Item.enclosed expression.isCompound fresh (expression.items digits ·) ++ rest →
    Parse.ReadsTo room state (Grammar.primary (.upTo levels)) rest
      (Arena.FindsExpression expression)

def Expression.TiersLegible (digits : Double → String) (expression : Expression) : Prop :=
  ∀ {room levels : Nat} {state : ParseState} {rest : List Item} {fresh : Bool},
    2 * expression.height ≤ room + 1 →
    maxNesting ≤ levels + state.depth →
    (state.following rest).Halts Item.expressionSigns →
    state.rest = expression.items digits fresh ++ rest →
    Parse.ReadsTo room state (Grammar.tiers (.upTo levels) Tier.all) rest
      (Arena.FindsExpression expression)

def Expression.Legible (digits : Double → String) (expression : Expression) : Prop :=
  ∀ {room levels : Nat} {state : ParseState} {rest : List Item} {fresh : Bool},
    2 * expression.height ≤ room →
    maxNesting ≤ levels + state.depth →
    (state.following rest).Halts Item.expressionSigns →
    state.rest = expression.items digits fresh ++ rest →
    Parse.ReadsTo room state (Grammar.expression (.upTo levels)) rest
      (Arena.FindsExpression expression)

def Block.Legible (digits : Double → String) (block : Block) : Prop :=
  ∀ {room levels : Nat} {state : ParseState} {rest : List Item},
    2 * block.height ≤ room →
    maxNesting ≤ levels + state.depth →
    state.rest = block.items digits ++ rest →
    Parse.ReadsTo room state (Grammar.block (.upTo levels)) rest (Arena.FindsBlock block)

def LambdaBody.Legible (digits : Double → String) : LambdaBody → Prop
  | .expression body => body.Legible digits
  | .block body => body.Legible digits

namespace Grammar

open Parse ParseState

variable {room levels : Nat} {state : ParseState} {rest : List Item}
variable {digits : Double → String} {expression : Expression}

variable {found : NodeId → Arena → Prop} {tier : Tier} {tighter all : List Tier}
variable {left right : Expression} {others : List Item} {fresh : Bool} {trees : List Expression}
variable {parameters : List Parameter} {result : Option TypeExpression} {body : LambdaBody}

section Links

variable {κ : Type} {find : ParseState → Option κ} {link : κ → NodeId → Parse NodeId}
variable {sort : κ} {before : NodeId}

theorem readsTo_linked_nothing (fuel : Nat) (ends : find state = none) (items : state.rest = rest)
    (finds : found before state.arena) :
    ReadsTo room state (linked find link fuel before) rest found := by
  cases fuel with
  | zero => exact ReadsTo.pure items finds
  | succ fuel =>
    refine .ask ?_
    rw [ends]
    exact .pure items finds

/-- One link is read, and then there is none. -/
theorem readsTo_linked_one [Parallel.Seen find] [∀ sort node, Uniform (link sort node)]
    {item : Item} (items : state.rest = item :: others) (starts : find state = some sort)
    (ends : ∀ after, state.entered.Passes after rest → find after = none) (spare : 0 < room)
    (enough : maxNesting ≤ levels + state.depth)
    (inside :
      ∀ level,
        levels = level + 1 →
        maxNesting ≤ level + state.entered.depth →
        ReadsTo (room - 1) state.entered (link sort before) rest found) :
    ReadsTo room state (ask (·.rest.length) >>= fun left => linked find link left before) rest
      found := by
  refine .ask ?_
  rw [items, List.length_cons, linked_succ]
  refine .ask ?_
  rw [starts]
  refine .deeper spare enough fun level isLevel deep => ?_
  have : ∀ node, Uniform (linked find link others.length node) :=
    uniform_linksUpTo find link leaving _ 0
  refine .bind (inside level isLevel deep) fun node after passes finds => ?_
  exact readsTo_linked_nothing _ (ends after passes) passes.rest finds

end Links

theorem suffix?_of_halts (halts : (state.following rest).Halts Item.suffixSigns)
    (items : state.rest = rest) : suffix? state = none := by
  have halted : ∀ sign ∈ Item.suffixSigns, state.continues sign = false := by
    intro sign member
    have halted := halts sign member
    rwa [← current_of_rest items] at halted
  simp [suffix?, halted .leftParen (by simp [Item.suffixSigns]),
    halted .dot (by simp [Item.suffixSigns])]

theorem operator?_of_halts (halts : (state.following rest).Halts (tier.map Prod.fst))
    (items : state.rest = rest) : operator? tier state = none := by
  refine List.find?_eq_none.mpr fun entry member => ?_
  have halted := halts entry.1 (List.mem_map_of_mem member)
  rw [← current_of_rest items] at halted
  exact Bool.not_eq_true _ ▸ halted

theorem readsTo_suffixes_nothing {subject : NodeId}
    (halts : (state.following rest).Halts Item.suffixSigns) (items : state.rest = rest)
    (finds : found subject state.arena) :
    ReadsTo room state (suffixes (.upTo levels) subject) rest found := by
  rw [suffixes_eq]
  exact .ask (readsTo_linked_nothing _ (suffix?_of_halts halts items) items finds)

theorem readsTo_operators_nothing {operand : Parse NodeId} {left : NodeId}
    (halts : (state.following rest).Halts (tier.map Prod.fst)) (items : state.rest = rest)
    (finds : found left state.arena) :
    ReadsTo room state (operators tier operand left) rest found :=
  ReadsTo.ask (readsTo_linked_nothing _ (operator?_of_halts halts items) items finds)

theorem readsTo_unary_of_primary (notUnary : unaryOperator? state.kind = none)
    (reads : ReadsTo room state (primary (.upTo levels)) others (Arena.FindsExpression expression))
    (suffix :
      ∀ subject after,
        state.Passes after others →
        Arena.FindsExpression expression subject after.arena →
        ReadsTo room after (suffixes (.upTo levels) subject) rest found) :
    ReadsTo room state (unary (.upTo levels)) rest found := by
  refine .ask ?_
  rw [notUnary]
  exact .bind reads suffix

theorem readsTo_tiers_looser {looser : List Tier}
    (halts : (state.following rest).Halts (Tier.signs looser))
    (reads : ReadsTo room state (tiers (.upTo levels) all) rest
      (Arena.FindsExpression expression)) :
    ReadsTo room state (tiers (.upTo levels) (looser ++ all)) rest
      (Arena.FindsExpression expression) := by
  induction looser with
  | nil => exact reads
  | cons tier tighter ih =>
    have halted := halts.mono (List.subset_append_right _ _)
    refine .bind (ih halted) fun left after passes finds => ?_
    refine readsTo_operators_nothing (passes.following_eq rest ▸ ?_) passes.rest finds
    exact halts.mono (List.subset_append_left _ _)

theorem readsTo_tiers_of_unary (halts : (state.following rest).Halts (Tier.signs all))
    (reads : ReadsTo room state (unary (.upTo levels)) rest (Arena.FindsExpression expression)) :
    ReadsTo room state (tiers (.upTo levels) all) rest (Arena.FindsExpression expression) := by
  rw [← List.append_nil all]
  exact readsTo_tiers_looser halts reads

theorem legible_of_tiers (legible : expression.TiersLegible digits) :
    expression.Legible digits := by
  intro room levels state rest fresh spare enough halts items
  have positive := expression.height_pos
  refine .deeper (by omega) enough ?_
  rintro level rfl deep
  exact legible (by omega) deep halts items

theorem operandLegible_of_legible (printable : expression.Printable digits)
    (compound : expression.isCompound = true) (legible : expression.Legible digits) :
    expression.OperandLegible digits := by
  intro room levels state rest fresh spare enough items
  obtain ⟨item, others, printed, starts⟩ := expression.exists_items printable false
  rw [Item.enclosed, if_pos compound, List.cons_append, List.append_assoc] at items
  refine .ask (.ask ?_)
  rw [kind_eq items]
  refine .ask (.pass (.next items) ?_)
  rintro _ opened passed rfl
  have notEmpty : opened.kind ≠ .symbol .rightParen := by
    intro isClosing
    have isKind := kind_eq (passed.rest.trans (congrArg (· ++ _) printed))
    have kind := starts.kind
    rw [← isKind, isClosing] at kind
    exact absurd kind (by decide)
  refine .pass (.eat_nothing passed.rest notEmpty) ?_
  rintro _ entered further rfl
  have same : entered.depth = state.depth := further.depth.trans passed.depth
  refine .bind (legible (spare compound) (same ▸ enough) (Item.symbol_halts _ (by decide))
    further.rest) ?_
  intro id after past finds
  refine .pass (.expect past.rest rfl) fun _ closed onward _ => ?_
  exact .pure onward.rest (finds.mono onward.within)

theorem operandLegible_number (id : NodeId) {value : Double}
    (stands : Double.ofText? (digits value) = some value) :
    (Expression.number id value).OperandLegible digits := by
  intro room levels state rest fresh _ _ items
  refine .ask (.ask ?_)
  rw [kind_eq items]
  refine .step rfl (passes_advance items) ?_
  rw [current_eq items]
  dsimp only
  split
  · next found isNumber =>
    obtain rfl : found = value := Option.some.inj (isNumber.symm.trans stands)
    exact .make (passes_advance items).rest (Arena.findsExpression_number _ _ _)
  · next notNumber => exact absurd (notNumber.symm.trans stands) (by simp)

theorem operandLegible_string (id : NodeId) (value : String) :
    (Expression.string id value).OperandLegible digits := by
  intro room levels state rest fresh _ _ items
  refine .ask (.ask ?_)
  rw [kind_eq items]
  refine .pass (.next items) ?_
  rintro _ after passes rfl
  exact .make passes.rest (Arena.findsExpression_string _ _ _)

theorem operandLegible_boolean (id : NodeId) (value : Bool) :
    (Expression.boolean id value).OperandLegible digits := by
  intro room levels state rest fresh _ _ items
  refine .ask (.ask ?_)
  rw [kind_eq items]
  cases value
  all_goals
    refine .pass (.next items) ?_
    rintro _ after passes rfl
    exact .make passes.rest (Arena.findsExpression_boolean _ _ _)

theorem operandLegible_unit (id : NodeId) : (Expression.unit id).OperandLegible digits := by
  intro room levels state rest fresh _ _ items
  refine .ask (.ask ?_)
  rw [kind_eq items]
  refine .ask (.pass (.next items) ?_)
  rintro _ opened passed rfl
  refine .pass (.eat passed.rest rfl) ?_
  rintro _ closed further rfl
  exact .makeFrom further.rest fun range => Arena.findsExpression_unit _ _

theorem operandLegible_identifier (id : NodeId) (name : String) :
    (Expression.identifier id name).OperandLegible digits := by
  intro room levels state rest fresh _ _ items
  refine .ask (.ask ?_)
  rw [kind_eq items]
  refine .pass (.name items rfl) ?_
  rintro _ after passes rfl
  exact .make passes.rest (Arena.findsExpression_identifier _ _ _)

theorem unaryOperator?_of_startsOperand {kind : TokenKind} (starts : kind.startsOperand = true) :
    unaryOperator? kind = none := by
  unfold unaryOperator?
  split
  · exact absurd starts (by decide)
  · exact absurd starts (by decide)
  · rfl

section

variable (printable : expression.Printable digits)
include printable

theorem readsTo_unary_suffixed
    (legible : expression.OperandLegible digits)
    (spare : expression.isCompound = true → 2 * expression.height ≤ room)
    (enough : maxNesting ≤ levels + state.depth)
    (items : state.rest =
      Item.enclosed expression.isCompound fresh (expression.items digits ·) ++ others)
    (suffix :
      ∀ subject after,
        state.Passes after others →
        Arena.FindsExpression expression subject after.arena →
        ReadsTo room after (suffixes (.upTo levels) subject) rest found) :
    ReadsTo room state (unary (.upTo levels)) rest found := by
  obtain ⟨item, more, printed, starts⟩ := expression.exists_operand printable fresh
  refine readsTo_unary_of_primary ?_ (legible spare enough items) suffix
  rw [kind_eq (items.trans (congrArg (· ++ others) printed))]
  exact unaryOperator?_of_startsOperand starts.kind

theorem readsTo_unary_operand
    (legible : expression.OperandLegible digits)
    (spare : expression.isCompound = true → 2 * expression.height ≤ room)
    (enough : maxNesting ≤ levels + state.depth)
    (halts : (state.following rest).Halts Item.suffixSigns)
    (items : state.rest =
      Item.enclosed expression.isCompound fresh (expression.items digits ·) ++ rest) :
    ReadsTo room state (unary (.upTo levels)) rest (Arena.FindsExpression expression) := by
  refine readsTo_unary_suffixed printable legible spare enough items ?_
  intro subject after passes finds
  exact readsTo_suffixes_nothing (passes.following_eq rest ▸ halts) passes.rest finds

theorem readsTo_tiers_operand
    (legible : expression.OperandLegible digits)
    (spare : expression.isCompound = true → 2 * expression.height ≤ room)
    (enough : maxNesting ≤ levels + state.depth)
    (halts : (state.following rest).Halts (Item.suffixSigns ++ Tier.signs all))
    (items : state.rest =
      Item.enclosed expression.isCompound fresh (expression.items digits ·) ++ rest) :
    ReadsTo room state (tiers (.upTo levels) all) rest (Arena.FindsExpression expression) :=
  readsTo_tiers_of_unary (halts.mono (List.subset_append_right _ _))
    (readsTo_unary_operand printable legible spare enough
      (halts.mono (List.subset_append_left _ _)) items)

theorem tiersLegible_of_word
    (isWord : expression.isCompound = false) (legible : expression.OperandLegible digits) :
    expression.TiersLegible digits := by
  intro room levels state rest fresh _ enough halts items
  have enclosed : state.rest =
      Item.enclosed expression.isCompound fresh (expression.items digits ·) ++ rest := by
    rw [isWord]
    exact items
  refine readsTo_tiers_operand printable legible (fun compound => ?_) enough halts enclosed
  rw [isWord] at compound
  cases compound

end

theorem tiersLegible_unary (id : NodeId) (operator : UnaryOp) (operand : Expression)
    (printable : operand.Printable digits) (legible : operand.OperandLegible digits) :
    (Expression.unary id operator operand).TiersLegible digits := by
  intro room levels state rest fresh spare enough halts items
  rw [Expression.height] at spare
  refine readsTo_tiers_of_unary (halts.mono (List.subset_append_right _ _)) ?_
  have isUnary : unaryOperator? state.kind = some operator := by
    rw [kind_eq items]
    cases operator <;> rfl
  refine .ask ?_
  rw [isUnary]
  refine .pass (.next items) ?_
  rintro _ after passes rfl
  rw [deeper_bind]
  have halted := halts.mono (List.subset_append_left _ _)
  have inside : ReadsTo room after (deeper (Phrases.upTo levels).unary) rest
      (Arena.FindsExpression operand) := by
    refine .deeper (by omega) (passes.depth ▸ enough) ?_
    rintro level rfl deep
    exact readsTo_unary_operand printable legible (fun _ => by omega) deep
      (passes.following_eq rest ▸ halted) passes.rest
  refine .bind inside fun found last further finds => ?_
  exact .ask (.make further.rest (Arena.findsExpression_unary _ _ finds))

theorem readsTo_arguments (printable : ∀ tree ∈ trees, tree.Printable digits)
    (legible : ∀ tree ∈ trees, tree.Legible digits)
    (spare : 2 * Expression.heightOfAll trees ≤ room) (enough : maxNesting ≤ levels + state.depth)
    (items : state.rest = Item.symbol false .leftParen ::
      (Item.divided (Expression.itemsOfAll digits trees) ++
        Item.symbol false .rightParen :: rest)) :
    ReadsTo room state (arguments (.upTo (levels + 1))) rest
      (Arena.FindsAll Arena.expressionAt 1 Expression.unnumbered trees) := by
  rw [Expression.itemsOfAll_eq] at items
  refine .pass (.expect items rfl) fun _ opened passed _ => ?_
  have starts : ∀ tree ∈ trees, ∃ item others,
      tree.items digits false = item :: others ∧ item.kind ≠ .symbol .rightParen := by
    intro tree member
    obtain ⟨item, others, printed, starts⟩ := tree.exists_items (printable tree member) false
    refine ⟨item, others, printed, fun isClosing => ?_⟩
    exact absurd (isClosing ▸ starts.kind) (by decide)
  have less : ∀ tree ∈ trees, 2 * tree.height ≤ room := by
    intro tree member
    have within := Expression.height_le_heightOfAll member
    omega
  refine .ask (.branch ?_)
  refine .bind (readsTo_listed starts (fun tree member _ _ _ shape same next =>
    legible tree member (less tree member) (same.trans passed.depth ▸ enough) ?_ shape)
    passed.rest) ?_
  · rcases next with rfl | rfl <;> exact Item.symbol_halts _ (by decide)
  intro ids listed further findsAll
  refine .pass (.expect further.rest rfl) fun _ closed onward _ => ?_
  exact .pure onward.rest (findsAll.mono onward.within)

theorem tiersLegible_call (id : NodeId) {callee : Expression}
    (printableCallee : callee.Printable digits) (legibleCallee : callee.OperandLegible digits)
    (printable : ∀ tree ∈ trees, tree.Printable digits)
    (legible : ∀ tree ∈ trees, tree.Legible digits) :
    (Expression.call id callee trees).TiersLegible digits := by
  intro room levels state rest fresh spare enough halts items
  rw [Expression.items, List.append_assoc, List.cons_append, List.append_assoc] at items
  rw [Expression.height] at spare
  refine readsTo_tiers_of_unary (halts.mono (List.subset_append_right _ _)) ?_
  refine readsTo_unary_suffixed printableCallee legibleCallee (fun _ => by omega) enough items ?_
  intro subject after passes finds
  have isCall : suffix? after = some true := by
    simp [suffix?, continues, nextIs, kind_eq passes.rest, current_eq passes.rest]
  have haltsAfter := (passes.following_eq rest ▸ halts).mono (List.subset_append_left _ _)
  rw [suffixes_eq]
  refine readsTo_linked_one passes.rest isCall (fun last past => suffix?_of_halts
    (past.following_eq rest ▸ haltsAfter) past.rest) (by omega) (passes.depth ▸ enough) ?_
  rintro level rfl deep
  refine ReadsTo.bind (readsTo_arguments printable legible (by omega) deep passes.rest) ?_
  intro ids listed further findsAll
  exact .ask (.makeFrom further.rest fun range =>
    Arena.findsExpression_call range id (finds.mono further.within) findsAll)

theorem tiersLegible_member (id : NodeId) (object : Expression) (name : String)
    (printable : object.Printable digits) (legible : object.OperandLegible digits) :
    (Expression.member id object name).TiersLegible digits := by
  intro room levels state rest fresh spare enough halts items
  rw [Expression.items, List.append_assoc] at items
  rw [Expression.height] at spare
  refine readsTo_tiers_of_unary (halts.mono (List.subset_append_right _ _)) ?_
  refine readsTo_unary_suffixed printable legible (fun _ => by omega) enough items ?_
  intro subject after passes finds
  have isMember : suffix? after = some false := by
    simp [suffix?, continues, nextIs, kind_eq passes.rest, current_eq passes.rest]
  have haltsAfter := (passes.following_eq rest ▸ halts).mono (List.subset_append_left _ _)
  rw [suffixes_eq]
  refine readsTo_linked_one passes.rest isMember (fun last past => suffix?_of_halts
    (past.following_eq rest ▸ haltsAfter) past.rest) (by omega) (passes.depth ▸ enough) ?_
  rintro level rfl deep
  refine .pass (@Gets.next after.entered _ _ passes.rest) ?_
  rintro _ dotted further rfl
  refine .pass (.name further.rest rfl) ?_
  rintro _ named past rfl
  exact .ask (.makeFrom past.rest fun range =>
    Arena.findsExpression_member range id (finds.mono (further.within.trans past.within)))

theorem exists_tier (operator : BinaryOp) :
    ∃ looser tier tighter,
      Tier.all = looser ++ tier :: tighter ∧
        tier.find? (fun entry => (Item.symbol false operator.sign).continues entry.1) =
          some (operator.sign, operator) ∧
        operator.sign ∉ Item.suffixSigns ++ Tier.signs tighter := by
  refine ⟨Tier.all.take operator.level, Tier.all.getD operator.level [],
    Tier.all.drop (operator.level + 1), ?_⟩
  cases operator <;> decide

theorem readsTo_tiers_binary (id : NodeId) {operator : BinaryOp}
    (takes : tier.find? (fun entry => (Item.symbol false operator.sign).continues entry.1) =
      some (operator.sign, operator))
    (ends : operator.sign ∉ Item.suffixSigns ++ Tier.signs tighter)
    (printableLeft : left.Printable digits) (printableRight : right.Printable digits)
    (legibleLeft : left.OperandLegible digits) (legibleRight : right.OperandLegible digits)
    (spare : 2 * max left.height right.height < room) (enough : maxNesting ≤ levels + state.depth)
    (halts : (state.following rest).Halts (Item.suffixSigns ++ Tier.signs (tier :: tighter)))
    (items : state.rest =
      Item.enclosed left.isCompound fresh (left.items digits ·) ++
        Item.symbol false operator.sign ::
          (Item.enclosed right.isCompound false (right.items digits ·) ++ rest)) :
    ReadsTo room state (tiers (.upTo levels) (tier :: tighter)) rest
      (Arena.FindsExpression (.binary id operator left right)) := by
  have haltsTier : (state.following rest).Halts (tier.map Prod.fst) :=
    halts.mono fun sign member => by
      rw [List.mem_append, Tier.mem_signs_cons]
      exact .inr (.inl member)
  have haltsTighter : (state.following rest).Halts (Item.suffixSigns ++ Tier.signs tighter) :=
    halts.mono fun sign member => by
      rw [List.mem_append, Tier.mem_signs_cons]
      exact (List.mem_append.mp member).imp_right .inr
  refine .bind (readsTo_tiers_operand printableLeft legibleLeft (fun _ => by omega) enough
    (show (state.following (.symbol false operator.sign :: _)).Halts _ from
      Item.symbol_halts false ends) items) ?_
  intro leftId after passes findsLeft
  have takesNext : operator? tier after = some (operator.sign, operator) := by
    rw [← takes]
    simp only [operator?, continues, nextIs, kind, current_eq passes.rest, Item.continues]
  have haltsAfter := passes.following_eq rest ▸ haltsTier
  refine readsTo_linked_one passes.rest takesNext (fun last past => operator?_of_halts
    (past.following_eq rest ▸ haltsAfter) past.rest) (by omega) (passes.depth ▸ enough) ?_
  rintro level rfl deep
  refine .pass (@Gets.next after.entered _ _ passes.rest) ?_
  rintro _ signed further rfl
  refine .bind (readsTo_tiers_operand printableRight legibleRight (fun _ => by omega)
    (further.depth ▸ Nat.le_trans deep (by omega)) ?_ further.rest) ?_
  · rw [further.following_eq]
    exact passes.following_eq rest ▸ haltsTighter
  intro rightId read past findsRight
  exact .ask (.ask (.make past.rest
    (Arena.findsExpression_binary _ id (findsLeft.mono (further.within.trans past.within))
      findsRight)))

theorem tiersLegible_binary (id : NodeId) (operator : BinaryOp)
    (printableLeft : left.Printable digits) (printableRight : right.Printable digits)
    (legibleLeft : left.OperandLegible digits) (legibleRight : right.OperandLegible digits) :
    (Expression.binary id operator left right).TiersLegible digits := by
  intro room levels state rest fresh spare enough halts items
  rw [Expression.items, List.append_assoc] at items
  rw [Expression.height] at spare
  obtain ⟨looser, tier, tighter, all, takes, ends⟩ := exists_tier operator
  rw [Item.expressionSigns, all] at halts
  rw [all]
  refine readsTo_tiers_looser (halts.mono fun sign member => ?_)
    (readsTo_tiers_binary id takes ends printableLeft printableRight legibleLeft legibleRight
      (by omega) enough (halts.mono fun sign member => ?_) items)
  · rw [List.mem_append, Tier.mem_signs_append]
    exact .inr (.inl member)
  · rw [List.mem_append, Tier.mem_signs_append]
    exact (List.mem_append.mp member).imp_right .inr

theorem exists_block_items {block : Block} (printable : block.Printable digits) :
    ∃ others, block.items digits = Item.symbol false .leftBrace :: others := by
  cases block with
  | statements id statements => exact ⟨_, rfl⟩
  | stray id => exact printable.elim

theorem readsTo_lambda (id : NodeId) (printable : PrintableSignature parameters result)
    (printableBody : body.Printable digits) (legibleBody : body.Legible digits)
    (spare : 2 * max (signatureHeight parameters result) body.height ≤ room)
    (enough : maxNesting ≤ levels + state.depth)
    (halts : (state.following rest).Halts Item.expressionSigns)
    (items : state.rest =
      (Expression.lambda id parameters result body).items digits fresh ++ rest) :
    ReadsTo room state (primary (.upTo levels)) rest
      (Arena.FindsExpression (.lambda id parameters result body)) := by
  rw [Expression.items, List.cons_append, List.append_assoc, List.append_assoc] at items
  have spareResult : 2 * TypeExpression.ascriptionHeight result ≤ room := by
    rw [signatureHeight] at spare
    omega
  refine .ask (.ask ?_)
  rw [kind_eq items]
  refine .ask (.pass (.next items) ?_)
  rintro _ opened passed rfl
  refine .bind (readsTo_parameters printable (by omega) (passed.depth ▸ enough)
    passed.rest) ?_
  intro ids listed further findsAll
  have deep : maxNesting ≤ levels + listed.depth := (further.depth.trans passed.depth) ▸ enough
  have haltsListed : (listed.following rest).Halts Item.expressionSigns := by
    rwa [further.following_eq, passed.following_eq]
  cases body with
  | expression body =>
    refine .bind (readsTo_ascription printable.result spareResult deep
      (by simp [ParseState.following, LambdaBody.items]) further.rest) ?_
    intro typeId typed past findsResult
    refine .pass (.eat past.rest rfl) ?_
    rintro _ pointed onward rfl
    refine .bind (legibleBody (by rw [LambdaBody.height] at spare; omega)
      ((onward.depth.trans past.depth) ▸ deep) ?_ onward.rest) ?_
    · rwa [onward.following_eq, past.following_eq]
    rintro bodyId read ahead ⟨found, same, shows⟩
    have within := onward.within.trans ahead.within
    exact .makeFrom ahead.rest fun range =>
      Arena.findsExpression_lambda range id (findsAll.mono (past.within.trans within))
        (findsResult.mono within)
        ⟨.expression found, congrArg LambdaBody.expression same, shows⟩
  | block body =>
    obtain ⟨others, printed⟩ := exists_block_items printableBody
    refine .bind (readsTo_ascription printable.result spareResult deep
      (by simp [ParseState.following, LambdaBody.items, printed]) further.rest) ?_
    intro typeId typed past findsResult
    have opens : typed.rest = Item.symbol false .leftBrace :: (others ++ rest) := by
      rw [past.rest, LambdaBody.items, printed, List.cons_append]
    refine .pass (.eat_nothing past.rest (by simp [kind_eq opens])) ?_
    rintro _ looked onward rfl
    refine .ask ?_
    rw [if_pos (by simp [nextIs, kind_eq (onward.rest.trans (past.rest.symm.trans opens))])]
    refine .bind (legibleBody (by rw [LambdaBody.height] at spare; omega)
      ((onward.depth.trans past.depth) ▸ deep) onward.rest) ?_
    rintro bodyId read ahead ⟨found, same, shows⟩
    have within := onward.within.trans ahead.within
    exact .makeFrom ahead.rest fun range =>
      Arena.findsExpression_lambda range id (findsAll.mono (past.within.trans within))
        (findsResult.mono within) ⟨.block found, congrArg LambdaBody.block same, shows⟩

theorem tiersLegible_lambda (id : NodeId) (printable : PrintableSignature parameters result)
    (printableBody : body.Printable digits) (legibleBody : body.Legible digits) :
    (Expression.lambda id parameters result body).TiersLegible digits := by
  intro room levels state rest fresh spare enough halts items
  rw [Expression.height] at spare
  refine readsTo_tiers_of_unary (halts.mono (List.subset_append_right _ _)) ?_
  refine readsTo_unary_of_primary ?_
    (readsTo_lambda id printable printableBody legibleBody (by omega) enough halts items) ?_
  · rw [kind_eq (items.trans rfl)]
    rfl
  intro subject after passes finds
  refine readsTo_suffixes_nothing (passes.following_eq rest ▸ ?_) passes.rest finds
  exact halts.mono (List.subset_append_left _ _)

theorem legible_and_operand (printable : expression.Printable digits)
    (compound : expression.isCompound = true) (legible : expression.TiersLegible digits) :
    expression.Legible digits ∧ expression.OperandLegible digits :=
  ⟨legible_of_tiers legible,
    operandLegible_of_legible printable compound (legible_of_tiers legible)⟩

theorem legible_and_operand_of_word (printable : expression.Printable digits)
    (isWord : expression.isCompound = false) (legible : expression.OperandLegible digits) :
    expression.Legible digits ∧ expression.OperandLegible digits :=
  ⟨legible_of_tiers (tiersLegible_of_word printable isWord legible), legible⟩

end Grammar

end Toolshed
