import Toolshed.Proofs.Grammar.Printed
import Toolshed.Proofs.Syntax.Shown

namespace Toolshed

/-!
# Trees up to the numbers of their nodes

A node that is made over nodes that are read as some trees is read as the tree
over these, whatever the numbers of the nodes.
-/

theorem TypeExpression.allUnnumbered_eq (trees : List TypeExpression) :
    TypeExpression.allUnnumbered trees = trees.map TypeExpression.unnumbered :=
  eq_map_of_cons rfl (fun _ _ => rfl) trees

theorem Expression.allUnnumbered_eq (trees : List Expression) :
    Expression.allUnnumbered trees = trees.map Expression.unnumbered :=
  eq_map_of_cons rfl (fun _ _ => rfl) trees

theorem Statement.allUnnumbered_eq (trees : List Statement) :
    Statement.allUnnumbered trees = trees.map Statement.unnumbered :=
  eq_map_of_cons rfl (fun _ _ => rfl) trees

theorem Declaration.allUnnumbered_eq (trees : List Declaration) :
    Declaration.allUnnumbered trees = trees.map Declaration.unnumbered :=
  eq_map_of_cons rfl (fun _ _ => rfl) trees

/-- Whether a statement is an `if` does not depend on numbers. -/
theorem Statement.isConditional_of_unnumbered {found tree : Statement}
    (same : found.unnumbered = tree.unnumbered) (isConditional : tree.isConditional = true) :
    found.isConditional = true := by
  match tree, found with
  | .conditional .., .conditional .. => rfl
  | .conditional .., .declaration .. | .conditional .., .expression ..
  | .conditional .., .returnNothing .. | .conditional .., .returnValue ..
  | .conditional .., .loop .. | .conditional .., .assignment .. | .conditional .., .stray .. =>
    simp at same

namespace Arena

/-- A node is read as a tree, up to the numbers of the nodes in the tree. -/
def Finds
    {γ : Type}
    (read : Arena → Nat → NodeId → γ)
    (slack : Nat)
    (erase : γ → γ)
    (tree : γ)
    (id : NodeId)
    (arena : Arena) : Prop :=
  ∃ found, erase found = erase tree ∧ arena.Shows read slack id found

/-- A node is read as a type. -/
abbrev FindsType :=
  Finds typeAt 1 TypeExpression.unnumbered

/-- A node is read as a parameter. -/
abbrev FindsParameter :=
  Finds parameterAt 1 Parameter.unnumbered

/-- A node is read as an expression. -/
abbrev FindsExpression :=
  Finds expressionAt 1 Expression.unnumbered

/-- A node is read as a block. -/
abbrev FindsBlock :=
  Finds blockAt 1 Block.unnumbered

/-- A node is read as a statement. -/
abbrev FindsStatement :=
  Finds statementAt 2 Statement.unnumbered

/-- A node is read as an `if`. -/
abbrev FindsConditional :=
  Finds statementAt 1 Statement.unnumbered

/-- A node is read as a declaration. -/
abbrev FindsDeclaration :=
  Finds declarationAt 1 Declaration.unnumbered

variable {γ : Type} {read : Arena → Nat → NodeId → γ} {slack : Nat} {erase : γ → γ}
variable {arena larger : Arena} {id : NodeId} {ids : List NodeId} {trees : List γ} {tree : γ}

theorem Shows.finds {tree found : γ} (shows : arena.Shows read slack id found)
    (same : erase found = erase tree) : Finds read slack erase tree id arena :=
  ⟨found, same, shows⟩

/-- Nodes that are added later change nothing. -/
theorem Finds.mono (finds : Finds read slack erase tree id arena) (within : arena.Within larger) :
    Finds read slack erase tree id larger := by
  obtain ⟨found, same, shows⟩ := finds
  exact ⟨found, same, shows.mono within⟩

/-- Nodes are read as trees one by one. -/
def FindsAll
    {γ : Type}
    (read : Arena → Nat → NodeId → γ)
    (slack : Nat)
    (erase : γ → γ)
    (trees : List γ)
    (ids : List NodeId)
    (arena : Arena) : Prop :=
  ∃ found, found.map erase = trees.map erase ∧ List.Forall₂ (arena.Shows read slack) ids found

theorem FindsAll.nil : FindsAll read slack erase [] [] arena :=
  ⟨[], rfl, .nil⟩

theorem FindsAll.cons (first : Finds read slack erase tree id arena)
    (rest : FindsAll read slack erase trees ids arena) :
    FindsAll read slack erase (tree :: trees) (id :: ids) arena := by
  obtain ⟨found, same, shows⟩ := first
  obtain ⟨others, sameOthers, showsOthers⟩ := rest
  exact ⟨found :: others, by rw [List.map_cons, List.map_cons, same, sameOthers],
    .cons shows showsOthers⟩

theorem FindsAll.concat (before : FindsAll read slack erase trees ids arena)
    (last : Finds read slack erase tree id arena) :
    FindsAll read slack erase (trees ++ [tree]) (ids ++ [id]) arena := by
  obtain ⟨found, same, shows⟩ := last
  obtain ⟨others, sameOthers, showsOthers⟩ := before
  refine ⟨others ++ [found], ?_, List.rel_append showsOthers (.cons shows .nil)⟩
  rw [List.map_append, List.map_append, sameOthers, List.map_cons, same]
  rfl

theorem FindsAll.mono (finds : FindsAll read slack erase trees ids arena)
    (within : arena.Within larger) : FindsAll read slack erase trees ids larger := by
  obtain ⟨found, same, shows⟩ := finds
  exact ⟨found, same, Shows.mono_all shows within⟩

/-- A node is read as a tree, or there is neither. -/
def FindsOption
    {γ : Type}
    (read : Arena → Nat → NodeId → γ)
    (slack : Nat)
    (erase : γ → γ)
    (tree : Option γ)
    (id : Option NodeId)
    (arena : Arena) : Prop :=
  ∃ found, Option.map erase found = tree.map erase ∧ Option.Rel (arena.Shows read slack) id found

theorem FindsOption.mono {tree : Option γ} {id : Option NodeId}
    (finds : FindsOption read slack erase tree id arena) (within : arena.Within larger) :
    FindsOption read slack erase tree id larger := by
  obtain ⟨found, same, shows⟩ := finds
  exact ⟨found, same, Shows.mono_option shows within⟩

/-- A node is read as the second branch of an `if`, if there is one. -/
def FindsOtherwise (tree : ElseBranch) (id : Option NodeId) (arena : Arena) : Prop :=
  ∃ found : ElseBranch, found.unnumbered = tree.unnumbered ∧ arena.ShowsOtherwise id found

/-- A node is read as the body of a lambda. -/
def FindsBody (tree : LambdaBody) (form : LambdaForm) (id : NodeId) (arena : Arena) : Prop :=
  ∃ found : LambdaBody, found.unnumbered = tree.unnumbered ∧ arena.ShowsBody form id found

/-- The parameters of a list are found. -/
abbrev FindsParameters :=
  FindsAll parameterAt 1 Parameter.unnumbered

/-- A written type is found, if there is one. -/
abbrev FindsAscription :=
  FindsOption typeAt 1 TypeExpression.unnumbered

section Added

variable (range : Range) (id : NodeId)
variable {tree : Expression} {parameterTrees : List Parameter} {name : String}
variable {parameters : List NodeId} {resultTree : Option TypeExpression}
variable {conditionTree : Expression} {result : Option NodeId} {type : TypeExpression}
variable {bodyTree : Block}

theorem findsType_named (name : String) :
    FindsType (.named id name) arena.next (arena.add (.namedType name) range) :=
  (showsType_named range name).finds rfl

theorem findsType_function {types : List TypeExpression} {result : NodeId}
    (findsParameters : FindsAll typeAt 1 TypeExpression.unnumbered types parameters arena)
    (findsResult : FindsType type result arena) :
    FindsType (.function id types type) arena.next
      (arena.add (.functionType parameters result) range) := by
  obtain ⟨foundTypes, sameTypes, showsTypes⟩ := findsParameters
  obtain ⟨found, same, shows⟩ := findsResult
  refine (showsType_function range showsTypes shows).finds ?_
  simp only [TypeExpression.unnumbered, TypeExpression.allUnnumbered_eq, sameTypes, same]

theorem findsParameter_named {written : NodeId} (findsType : FindsType type written arena) :
    FindsParameter (.named id name type) arena.next
      (arena.add (.parameter name written) range) := by
  obtain ⟨found, same, shows⟩ := findsType
  refine (showsParameter_named range shows).finds ?_
  rw [Parameter.unnumbered, Parameter.unnumbered, same]

theorem findsExpression_number (value : Double) :
    FindsExpression (.number id value) arena.next (arena.add (.number value) range) :=
  (showsExpression_number range value).finds rfl

theorem findsExpression_string (value : String) :
    FindsExpression (.string id value) arena.next (arena.add (.string value) range) :=
  (showsExpression_string range value).finds rfl

theorem findsExpression_boolean (value : Bool) :
    FindsExpression (.boolean id value) arena.next (arena.add (.boolean value) range) :=
  (showsExpression_boolean range value).finds rfl

theorem findsExpression_unit :
    FindsExpression (.unit id) arena.next (arena.add .unit range) :=
  (showsExpression_unit range).finds rfl

theorem findsExpression_identifier (name : String) :
    FindsExpression (.identifier id name) arena.next (arena.add (.identifier name) range) :=
  (showsExpression_identifier range name).finds rfl

/-- An operation over two found operands is found. -/
theorem findsExpression_binary {operator : BinaryOp} {leftTree rightTree : Expression}
    {left right : NodeId} (findsLeft : FindsExpression leftTree left arena)
    (findsRight : FindsExpression rightTree right arena) :
    FindsExpression (.binary id operator leftTree rightTree) arena.next
      (arena.add (.binary operator left right) range) := by
  obtain ⟨foundLeft, sameLeft, showsLeft⟩ := findsLeft
  obtain ⟨foundRight, sameRight, showsRight⟩ := findsRight
  refine (showsExpression_binary range showsLeft showsRight).finds ?_
  simp only [Expression.unnumbered, sameLeft, sameRight]

theorem findsExpression_unary {operator : UnaryOp} {operand : NodeId}
    (finds : FindsExpression tree operand arena) :
    FindsExpression (.unary id operator tree) arena.next
      (arena.add (.unary operator operand) range) := by
  obtain ⟨found, same, shows⟩ := finds
  refine (showsExpression_unary range shows).finds ?_
  simp only [Expression.unnumbered, same]

/-- A call over a found callee and found arguments is found. -/
theorem findsExpression_call {calleeTree : Expression} {trees : List Expression} {callee : NodeId}
    {arguments : List NodeId} (findsCallee : FindsExpression calleeTree callee arena)
    (findsArguments : FindsAll expressionAt 1 Expression.unnumbered trees arguments arena) :
    FindsExpression (.call id calleeTree trees) arena.next
      (arena.add (.call callee arguments) range) := by
  obtain ⟨found, same, shows⟩ := findsCallee
  obtain ⟨foundAll, sameAll, showsAll⟩ := findsArguments
  refine (showsExpression_call range shows showsAll).finds ?_
  simp only [Expression.unnumbered, Expression.allUnnumbered_eq, same, sameAll]

theorem findsExpression_member {object : NodeId} (finds : FindsExpression tree object arena) :
    FindsExpression (.member id tree name) arena.next (arena.add (.member object name) range) := by
  obtain ⟨found, same, shows⟩ := finds
  refine (showsExpression_member range shows).finds ?_
  simp only [Expression.unnumbered, same]

/-- A lambda over found parts is found. -/
theorem findsExpression_lambda {bodyTree : LambdaBody} {form : LambdaForm} {body : NodeId}
    (findsParameters : FindsParameters parameterTrees parameters arena)
    (findsResult : FindsAscription resultTree result arena)
    (findsBody : FindsBody bodyTree form body arena) :
    FindsExpression (.lambda id parameterTrees resultTree bodyTree) arena.next
      (arena.add (.lambda parameters result form body) range) := by
  obtain ⟨foundAll, sameAll, showsAll⟩ := findsParameters
  obtain ⟨foundResult, sameResult, showsResult⟩ := findsResult
  obtain ⟨found, same, shows⟩ := findsBody
  refine (showsExpression_lambda range showsAll showsResult shows).finds ?_
  simp only [Expression.unnumbered, same, sameAll, sameResult]

theorem findsBlock {trees : List Statement} {statements : List NodeId}
    (finds : FindsAll statementAt 2 Statement.unnumbered trees statements arena) :
    FindsBlock (.statements id trees) arena.next (arena.add (.block statements) range) := by
  obtain ⟨found, same, shows⟩ := finds
  refine (showsBlock range shows).finds ?_
  simp only [Block.unnumbered, Statement.allUnnumbered_eq, same]

theorem findsStatement_expression {expression : NodeId}
    (finds : FindsExpression tree expression arena) :
    FindsStatement (.expression id tree) arena.next
      (arena.add (.expressionStatement expression) range) := by
  obtain ⟨found, same, shows⟩ := finds
  refine (showsStatement_expression range shows).finds ?_
  simp only [Statement.unnumbered, same]

theorem findsStatement_returnNothing :
    FindsStatement (.returnNothing id) arena.next (arena.add (.returnStatement none) range) :=
  (showsStatement_returnNothing range).finds rfl

theorem findsStatement_returnValue {value : NodeId} (finds : FindsExpression tree value arena) :
    FindsStatement (.returnValue id tree) arena.next
      (arena.add (.returnStatement (some value)) range) := by
  obtain ⟨found, same, shows⟩ := finds
  refine (showsStatement_returnValue range shows).finds ?_
  simp only [Statement.unnumbered, same]

/-- An `if` over found parts is found. -/
theorem findsConditional {thenTree : Block} {otherwiseTree : ElseBranch}
    {condition thenBlock : NodeId} {otherwise : Option NodeId}
    (findsCondition : FindsExpression conditionTree condition arena)
    (findsThen : FindsBlock thenTree thenBlock arena)
    (findsOtherwise : FindsOtherwise otherwiseTree otherwise arena) :
    FindsConditional (.conditional id conditionTree thenTree otherwiseTree) arena.next
      (arena.add (.ifStatement condition thenBlock otherwise) range) := by
  obtain ⟨foundCondition, sameCondition, showsCondition⟩ := findsCondition
  obtain ⟨foundThen, sameThen, showsThen⟩ := findsThen
  obtain ⟨foundOtherwise, sameOtherwise, showsOtherwise⟩ := findsOtherwise
  refine (showsConditional range showsCondition showsThen showsOtherwise).finds ?_
  simp only [Statement.unnumbered, sameCondition, sameThen, sameOtherwise]

theorem findsStatement_loop {condition body : NodeId}
    (findsCondition : FindsExpression conditionTree condition arena)
    (findsBody : FindsBlock bodyTree body arena) :
    FindsStatement (.loop id conditionTree bodyTree) arena.next
      (arena.add (.whileStatement condition body) range) := by
  obtain ⟨foundCondition, sameCondition, showsCondition⟩ := findsCondition
  obtain ⟨foundBody, sameBody, showsBody⟩ := findsBody
  refine (showsStatement_loop range showsCondition showsBody).finds ?_
  simp only [Statement.unnumbered, sameCondition, sameBody]

theorem findsStatement_assignment {target : String} {value : NodeId}
    (finds : FindsExpression tree value arena) :
    FindsStatement (.assignment id target tree) arena.next
      (arena.add (.assignment target value) range) := by
  obtain ⟨found, same, shows⟩ := finds
  refine (showsStatement_assignment range shows).finds ?_
  simp only [Statement.unnumbered, same]

/-- A value over a found initial value is found. -/
theorem findsDeclaration_value {mutable : Bool} {typeTree : Option TypeExpression}
    {initialTree : Expression} {type : Option NodeId} {initial : NodeId}
    (findsType : FindsAscription typeTree type arena)
    (findsInitial : FindsExpression initialTree initial arena) :
    FindsDeclaration (.value id mutable name typeTree initialTree) arena.next
      (arena.add (.letDecl mutable name type initial) range) := by
  obtain ⟨foundType, sameType, showsType⟩ := findsType
  obtain ⟨found, same, shows⟩ := findsInitial
  refine (showsDeclaration_value range showsType shows).finds ?_
  simp only [Declaration.unnumbered, sameType, same]

/-- A function over found parts is found. -/
theorem findsDeclaration_function {body : NodeId}
    (findsParameters : FindsParameters parameterTrees parameters arena)
    (findsResult : FindsAscription resultTree result arena)
    (findsBody : FindsBlock bodyTree body arena) :
    FindsDeclaration (.function id name parameterTrees resultTree bodyTree) arena.next
      (arena.add (.funDecl name parameters result body) range) := by
  obtain ⟨foundAll, sameAll, showsAll⟩ := findsParameters
  obtain ⟨foundResult, sameResult, showsResult⟩ := findsResult
  obtain ⟨found, same, shows⟩ := findsBody
  refine (showsDeclaration_function range showsAll showsResult shows).finds ?_
  simp only [Declaration.unnumbered, same, sameAll, sameResult]

/-- A class over found members is found. -/
theorem findsDeclaration_classType {memberTrees : List Declaration}
    {parameters members : List NodeId}
    (findsParameters : FindsParameters parameterTrees parameters arena)
    (findsMembers : FindsAll declarationAt 1 Declaration.unnumbered memberTrees members arena) :
    FindsDeclaration (.classType id name parameterTrees memberTrees) arena.next
      (arena.add (.classDecl name parameters members) range) := by
  obtain ⟨foundAll, sameAll, showsAll⟩ := findsParameters
  obtain ⟨found, same, shows⟩ := findsMembers
  refine (showsDeclaration_classType range showsAll shows).finds ?_
  simp only [Declaration.unnumbered, Declaration.allUnnumbered_eq, same, sameAll]

end Added

theorem Finds.statement {tree : Declaration} (finds : FindsDeclaration tree id arena)
    (known : tree.unnumbered ≠ .stray 0) : FindsStatement (.declaration tree) id arena := by
  obtain ⟨found, same, shows⟩ := finds
  refine ⟨.declaration found, by simp only [Statement.unnumbered, same], shows.statement ?_⟩
  rintro other rfl
  exact known same.symm

/-- A node that is an `if` is a statement too. -/
theorem Finds.conditionalStatement {tree : Statement} (finds : FindsConditional tree id arena) :
    FindsStatement tree id arena := by
  obtain ⟨found, same, shows⟩ := finds
  exact ⟨found, same, shows.conditionalStatement⟩

/-- A node that is an `if` is the second branch of another. -/
theorem Finds.otherwise {tree : Statement} (finds : FindsConditional tree id arena)
    (isConditional : tree.isConditional = true) :
    FindsOtherwise (.statement tree) (some id) arena := by
  obtain ⟨found, same, shows⟩ := finds
  refine ⟨.statement found, congrArg ElseBranch.statement same,
    shows.conditionalBranch (Statement.isConditional_of_unnumbered same isConditional)⟩

/-- A node that is a block is the second branch of an `if`. -/
theorem Finds.otherwiseBlock {number : NodeId} {trees : List Statement}
    (finds : FindsBlock (.statements number trees) id arena) :
    FindsOtherwise (.block (.statements number trees)) (some id) arena := by
  obtain ⟨found, same, shows⟩ := finds
  cases found with
  | statements other statements =>
    exact ⟨.block _, congrArg ElseBranch.block same, shows.blockBranch⟩
  | stray other => simp at same

end Arena

end Toolshed
