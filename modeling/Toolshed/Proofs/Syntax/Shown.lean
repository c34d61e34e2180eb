import Mathlib.Data.List.Forall2
import Toolshed.Proofs.Syntax.Proper
import Toolshed.Syntax.Tree

namespace Toolshed

/-!
# Trees in growing stores

Nodes are added to a store and never change, so what a node is read as stays the
same. Reading goes down to older nodes, so their number bounds its depth.
-/

namespace Arena

def Within (arena larger : Arena) : Prop :=
  arena.nodes.toList <+: larger.nodes.toList

/--
A node is read as a tree from a store on, if the reading goes deep enough;
`slack` says how often the reading passes the node itself.
-/
structure Shows
    {α : Type}
    (read : Arena → Nat → NodeId → α)
    (slack : Nat)
    (arena : Arena)
    (id : Nat)
    (tree : α) : Prop where
  inside : id < arena.nodes.size
  reads :
    ∀ larger fuel,
      arena.Within larger →
      2 * id + slack ≤ fuel →
      read larger fuel id = tree

abbrev ShowsType :=
  Shows typeAt 1

abbrev ShowsParameter :=
  Shows parameterAt 1

abbrev ShowsExpression :=
  Shows expressionAt 1

abbrev ShowsBlock :=
  Shows blockAt 1

abbrev ShowsStatement :=
  Shows statementAt 2

abbrev ShowsConditional :=
  Shows statementAt 1

abbrev ShowsBranch :=
  Shows elseBranchAt 2

abbrev ShowsDeclaration :=
  Shows declarationAt 1

def ShowsImport (arena : Arena) (id : NodeId) (entry : Import) : Prop :=
  Shows (fun larger _ child => larger.importAt? child) 0 arena id (some entry)

section Within

variable {arena middle larger : Arena} {id : NodeId} {node : Node} {range : Range}

theorem Within.refl (arena : Arena) : arena.Within arena :=
  List.prefix_rfl

theorem Within.trans (first : arena.Within middle) (second : middle.Within larger) :
    arena.Within larger :=
  List.IsPrefix.trans first second

theorem within_add (arena : Arena) (node : Node) (range : Range) :
    arena.Within (arena.add node range) := by
  unfold Within
  rw [add_nodes, Array.toList_push]
  exact List.prefix_append _ _

theorem Within.node?_eq (within : arena.Within larger) (inside : id < arena.nodes.size) :
    larger.node? id = arena.node? id := by
  obtain ⟨extra, nodes⟩ := within
  simp only [node?, ← Array.getElem?_toList, ← nodes]
  exact List.getElem?_append_left (by simpa using inside)

theorem Within.node?_add (within : (arena.add node range).Within larger) :
    larger.node? arena.next = some node := by
  rw [within.node?_eq (by simp [next]), Arena.node?_add, if_pos (by rfl)]

end Within

namespace Shows

variable {α : Type} {read : Arena → Nat → NodeId → α} {slack : Nat}
variable {arena larger : Arena} {id : Nat} {tree : α}
variable {fuel : Nat} {ids : List NodeId} {trees : Option α} {found : Option NodeId}

theorem mono (shows : arena.Shows read slack id tree) (within : arena.Within larger) :
    larger.Shows read slack id tree := by
  refine ⟨Nat.lt_of_lt_of_le shows.inside ?_, fun other fuel more deep =>
    shows.reads other fuel (within.trans more) deep⟩
  simpa using within.length_le

theorem of_add {node : Node} {range : Range}
    (reads :
      ∀ larger fuel,
        larger.node? arena.next = some node →
        arena.Within larger →
        2 * arena.nodes.size ≤ fuel →
        read larger (fuel + slack) arena.next = tree) :
    (arena.add node range).Shows read slack arena.next tree := by
  refine ⟨by simp [next], fun larger fuel within deep => ?_⟩
  obtain ⟨depth, rfl⟩ := Nat.exists_eq_add_of_le' (Nat.le_trans (Nat.le_add_left _ _) deep)
  exact reads larger depth within.node?_add ((arena.within_add node range).trans within)
    (Nat.le_of_add_le_add_right deep)

theorem below (shows : arena.Shows read slack id tree) (within : arena.Within larger)
    (deep : 2 * arena.nodes.size ≤ fuel) (small : slack ≤ 2) :
    read larger fuel id = tree := by
  refine shows.reads larger fuel within ?_
  have inside := shows.inside
  omega

theorem map_below {trees : List α} (shows : List.Forall₂ (arena.Shows read slack) ids trees)
    (within : arena.Within larger) (deep : 2 * arena.nodes.size ≤ fuel)
    (small : slack ≤ 2) : ids.map (read larger fuel) = trees := by
  induction shows with
  | nil => rfl
  | cons first _ ih =>
    rw [List.map_cons, first.below within deep small, ih]

theorem option_below (shows : Option.Rel (arena.Shows read slack) found trees)
    (within : arena.Within larger) (deep : 2 * arena.nodes.size ≤ fuel)
    (small : slack ≤ 2) : found.map (read larger fuel) = trees := by
  cases shows with
  | none => rfl
  | some shows => rw [Option.map_some, shows.below within deep small]

theorem mono_all {trees : List α} (shows : List.Forall₂ (arena.Shows read slack) ids trees)
    (within : arena.Within larger) : List.Forall₂ (larger.Shows read slack) ids trees :=
  shows.imp fun _ _ shows => shows.mono within

theorem mono_option (shows : Option.Rel (arena.Shows read slack) found trees)
    (within : arena.Within larger) : Option.Rel (larger.Shows read slack) found trees := by
  cases shows with
  | none => exact .none
  | some shows => exact .some (shows.mono within)

end Shows

section Added

variable {arena : Arena} (range : Range)
variable {parameters : List NodeId} {result : Option NodeId} {type : TypeExpression} {name : String}
variable {tree conditionTree : Expression} {body value condition : NodeId}
variable {parameterTrees : List Parameter} {resultTree : Option TypeExpression} {bodyTree : Block}

theorem showsType_named (name : String) :
    (arena.add (.namedType name) range).ShowsType arena.next (.named arena.next name) :=
  .of_add fun larger fuel found _ _ => by
    simp [typeAt, found]

theorem showsType_function {result : NodeId} {types : List TypeExpression}
    (shownParameters : List.Forall₂ arena.ShowsType parameters types)
    (shownResult : arena.ShowsType result type) :
    (arena.add (.functionType parameters result) range).ShowsType arena.next
      (.function arena.next types type) :=
  .of_add fun larger fuel found within deep => by
    simp [typeAt, found, Shows.map_below shownParameters within deep (by simp),
      shownResult.below within deep (by simp)]

theorem showsParameter_named {written : NodeId} (shown : arena.ShowsType written type) :
    (arena.add (.parameter name written) range).ShowsParameter arena.next
      (.named arena.next name type) :=
  .of_add fun larger fuel found within deep => by
    simp [parameterAt, found, shown.below within (Nat.le_succ_of_le deep) (by simp)]

theorem showsExpression_number (value : Double) :
    (arena.add (.number value) range).ShowsExpression arena.next (.number arena.next value) :=
  .of_add fun larger fuel found _ _ => by
    simp [expressionAt, found]

theorem showsExpression_string (value : String) :
    (arena.add (.string value) range).ShowsExpression arena.next (.string arena.next value) :=
  .of_add fun larger fuel found _ _ => by
    simp [expressionAt, found]

theorem showsExpression_boolean (value : Bool) :
    (arena.add (.boolean value) range).ShowsExpression arena.next (.boolean arena.next value) :=
  .of_add fun larger fuel found _ _ => by
    simp [expressionAt, found]

theorem showsExpression_unit :
    (arena.add .unit range).ShowsExpression arena.next (.unit arena.next) :=
  .of_add fun larger fuel found _ _ => by
    simp [expressionAt, found]

theorem showsExpression_identifier (name : String) :
    (arena.add (.identifier name) range).ShowsExpression arena.next
      (.identifier arena.next name) :=
  .of_add fun larger fuel found _ _ => by
    simp [expressionAt, found]

theorem showsExpression_binary {operator : BinaryOp} {left right : NodeId}
    {leftTree rightTree : Expression} (shownLeft : arena.ShowsExpression left leftTree)
    (shownRight : arena.ShowsExpression right rightTree) :
    (arena.add (.binary operator left right) range).ShowsExpression arena.next
      (.binary arena.next operator leftTree rightTree) :=
  .of_add fun larger fuel found within deep => by
    simp [expressionAt, found, shownLeft.below within deep (by simp),
      shownRight.below within deep (by simp)]

theorem showsExpression_unary {operator : UnaryOp} {operand : NodeId}
    (shown : arena.ShowsExpression operand tree) :
    (arena.add (.unary operator operand) range).ShowsExpression arena.next
      (.unary arena.next operator tree) :=
  .of_add fun larger fuel found within deep => by
    simp [expressionAt, found, shown.below within deep (by simp)]

theorem showsExpression_call {callee : NodeId} {arguments : List NodeId} {calleeTree : Expression}
    {trees : List Expression} (shownCallee : arena.ShowsExpression callee calleeTree)
    (shownArguments : List.Forall₂ arena.ShowsExpression arguments trees) :
    (arena.add (.call callee arguments) range).ShowsExpression arena.next
      (.call arena.next calleeTree trees) :=
  .of_add fun larger fuel found within deep => by
    simp [expressionAt, found, shownCallee.below within deep (by simp),
      Shows.map_below shownArguments within deep (by simp)]

theorem showsExpression_member {object : NodeId} (shown : arena.ShowsExpression object tree) :
    (arena.add (.member object name) range).ShowsExpression arena.next
      (.member arena.next tree name) :=
  .of_add fun larger fuel found within deep => by
    simp [expressionAt, found, shown.below within deep (by simp)]

def ShowsBody (arena : Arena) : LambdaForm → NodeId → LambdaBody → Prop
  | .expression, id, .expression body => arena.ShowsExpression id body
  | .block, id, .block body => arena.ShowsBlock id body
  | _, _, _ => False

theorem showsExpression_lambda {form : LambdaForm} {bodyTree : LambdaBody}
    (shownParameters : List.Forall₂ arena.ShowsParameter parameters parameterTrees)
    (shownResult : Option.Rel arena.ShowsType result resultTree)
    (shownBody : arena.ShowsBody form body bodyTree) :
    (arena.add (.lambda parameters result form body) range).ShowsExpression arena.next
      (.lambda arena.next parameterTrees resultTree bodyTree) :=
  .of_add fun larger fuel found within deep => by
    cases form with
    | expression =>
      cases bodyTree with
      | expression body =>
        simp [expressionAt, found, Shows.map_below shownParameters within deep (by simp),
          Shows.option_below shownResult within deep (by simp),
          Shows.below shownBody within deep (by simp)]
      | block body => exact shownBody.elim
    | block =>
      cases bodyTree with
      | expression body => exact shownBody.elim
      | block body =>
        simp [expressionAt, found, Shows.map_below shownParameters within deep (by simp),
          Shows.option_below shownResult within deep (by simp),
          Shows.below shownBody within deep (by simp)]

theorem showsBlock {statements : List NodeId} {trees : List Statement}
    (shown : List.Forall₂ arena.ShowsStatement statements trees) :
    (arena.add (.block statements) range).ShowsBlock arena.next (.statements arena.next trees) :=
  .of_add fun larger fuel found within deep => by
    simp [blockAt, found, Shows.map_below shown within deep (by simp)]

attribute [local simp] statementAt

theorem showsStatement_expression {expression : NodeId}
    (shown : arena.ShowsExpression expression tree) :
    (arena.add (.expressionStatement expression) range).ShowsStatement arena.next
      (.expression arena.next tree) :=
  .of_add fun larger fuel found within deep => by
    simp [found, shown.below within (Nat.le_succ_of_le deep) (by simp)]

theorem showsStatement_returnNothing :
    (arena.add (.returnStatement none) range).ShowsStatement arena.next
      (.returnNothing arena.next) :=
  .of_add fun larger fuel found _ _ => by
    simp [found]

theorem showsStatement_returnValue (shown : arena.ShowsExpression value tree) :
    (arena.add (.returnStatement (some value)) range).ShowsStatement arena.next
      (.returnValue arena.next tree) :=
  .of_add fun larger fuel found within deep => by
    simp [found, shown.below within (Nat.le_succ_of_le deep) (by simp)]

def ShowsOtherwise (arena : Arena) : Option NodeId → ElseBranch → Prop
  | none, branch => branch = .nothing
  | some id, branch => arena.ShowsBranch id branch

theorem showsConditional {thenBlock : NodeId} {otherwise : Option NodeId} {thenTree : Block}
    {otherwiseTree : ElseBranch} (shownCondition : arena.ShowsExpression condition conditionTree)
    (shownThen : arena.ShowsBlock thenBlock thenTree)
    (shownOtherwise : arena.ShowsOtherwise otherwise otherwiseTree) :
    (arena.add (.ifStatement condition thenBlock otherwise) range).ShowsConditional arena.next
      (.conditional arena.next conditionTree thenTree otherwiseTree) :=
  .of_add fun larger fuel found within deep => by
    cases otherwise with
    | none =>
      obtain rfl := shownOtherwise
      simp [found, shownCondition.below within deep (by simp),
        shownThen.below within deep (by simp)]
    | some branch =>
      simp [found, shownCondition.below within deep (by simp),
        shownThen.below within deep (by simp), Shows.below shownOtherwise within deep (by simp)]

theorem showsStatement_loop (shownCondition : arena.ShowsExpression condition conditionTree)
    (shownBody : arena.ShowsBlock body bodyTree) :
    (arena.add (.whileStatement condition body) range).ShowsStatement arena.next
      (.loop arena.next conditionTree bodyTree) :=
  .of_add fun larger fuel found within deep => by
    have deeper := Nat.le_succ_of_le deep
    simp [found, shownCondition.below within deeper (by simp),
      shownBody.below within deeper (by simp)]

theorem showsStatement_assignment {target : String} (shown : arena.ShowsExpression value tree) :
    (arena.add (.assignment target value) range).ShowsStatement arena.next
      (.assignment arena.next target tree) :=
  .of_add fun larger fuel found within deep => by
    simp [found, shown.below within (Nat.le_succ_of_le deep) (by simp)]

theorem showsDeclaration_value {mutable : Bool} {type : Option NodeId} {initial : NodeId}
    {typeTree : Option TypeExpression} {initialTree : Expression}
    (shownType : Option.Rel arena.ShowsType type typeTree)
    (shownInitial : arena.ShowsExpression initial initialTree) :
    (arena.add (.letDecl mutable name type initial) range).ShowsDeclaration arena.next
      (.value arena.next mutable name typeTree initialTree) :=
  .of_add fun larger fuel found within deep => by
    simp [declarationAt, found, Shows.option_below shownType within deep (by simp),
      shownInitial.below within deep (by simp)]

theorem showsDeclaration_function
    (shownParameters : List.Forall₂ arena.ShowsParameter parameters parameterTrees)
    (shownResult : Option.Rel arena.ShowsType result resultTree)
    (shownBody : arena.ShowsBlock body bodyTree) :
    (arena.add (.funDecl name parameters result body) range).ShowsDeclaration arena.next
      (.function arena.next name parameterTrees resultTree bodyTree) :=
  .of_add fun larger fuel found within deep => by
    simp [declarationAt, found, Shows.map_below shownParameters within deep (by simp),
      Shows.option_below shownResult within deep (by simp), shownBody.below within deep (by simp)]

theorem showsDeclaration_classType {members : List NodeId} {memberTrees : List Declaration}
    (shownParameters : List.Forall₂ arena.ShowsParameter parameters parameterTrees)
    (shownMembers : List.Forall₂ arena.ShowsDeclaration members memberTrees) :
    (arena.add (.classDecl name parameters members) range).ShowsDeclaration arena.next
      (.classType arena.next name parameterTrees memberTrees) :=
  .of_add fun larger fuel found within deep => by
    simp [declarationAt, found, Shows.map_below shownParameters within deep (by simp),
      Shows.map_below shownMembers within deep (by simp)]

theorem showsImport (path : ModulePath) (chosenName : Option String) :
    (arena.add (.importDecl path chosenName) range).ShowsImport arena.next
      ⟨arena.next, path, chosenName⟩ :=
  .of_add fun larger fuel found _ _ => by
    simp [importAt?, found]

end Added

section Places

variable {arena : Arena} {id : Nat}

theorem Shows.statement {declared : Declaration} (shown : arena.ShowsDeclaration id declared)
    (known : ∀ other, declared ≠ .stray other) :
    arena.ShowsStatement id (.declaration declared) := by
  refine ⟨shown.inside, fun larger fuel within deep => ?_⟩
  obtain ⟨depth, rfl⟩ := Nat.exists_eq_add_of_le' (Nat.le_trans (Nat.le_add_left _ _) deep)
  have reads := shown.reads larger (depth + 1) within (by omega)
  -- Every other node is read as a stray declaration.
  cases found : larger.node? id with
  | none => exact (known id (by simpa [declarationAt, found] using reads.symm)).elim
  | some node =>
    cases node with
    | letDecl | funDecl | classDecl => simp [statementAt, found, reads]
    | _ => exact (known id (by simpa [declarationAt, found] using reads.symm)).elim

theorem Shows.conditionalStatement {statement : Statement}
    (shown : arena.ShowsConditional id statement) : arena.ShowsStatement id statement :=
  ⟨shown.inside, fun larger fuel within deep => shown.reads larger fuel within (by omega)⟩

theorem Shows.blockBranch {number : NodeId} {statements : List Statement}
    (shown : arena.ShowsBlock id (.statements number statements)) :
    arena.ShowsBranch id (.block (.statements number statements)) := by
  refine ⟨shown.inside, fun larger fuel within deep => ?_⟩
  obtain ⟨depth, rfl⟩ := Nat.exists_eq_add_of_le' (Nat.le_trans (Nat.le_add_left _ _) deep)
  have reads := shown.reads larger (depth + 1) within (by omega)
  cases found : larger.node? id with
  | none => simp [blockAt, found] at reads
  | some node =>
    cases node with
    | block => simp [elseBranchAt, found, reads]
    | _ => simp [blockAt, found] at reads

theorem Shows.conditionalBranch {statement : Statement}
    (shown : arena.ShowsConditional id statement) (isConditional : statement.isConditional = true) :
    arena.ShowsBranch id (.statement statement) := by
  refine ⟨shown.inside, fun larger fuel within deep => ?_⟩
  obtain ⟨depth, rfl⟩ := Nat.exists_eq_add_of_le' (Nat.le_trans (Nat.le_add_left _ _) deep)
  have reads := shown.reads larger (depth + 1) within (by omega)
  have notBlock : ∀ statements, larger.node? id ≠ some (.block statements) := by
    intro statements found
    have stray : statement = .stray id := by simpa [statementAt, found] using reads.symm
    simp [stray, Statement.isConditional] at isConditional
  cases found : larger.node? id with
  | none => simp [elseBranchAt, reads]
  | some node =>
    cases node with
    | block statements => exact (notBlock statements found).elim
    | _ => simp [elseBranchAt, reads]

end Places

end Arena

end Toolshed
