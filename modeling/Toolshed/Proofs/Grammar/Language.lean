import Toolshed.Double.Decimal
import Toolshed.Grammar.State
import Toolshed.Syntax.Tree

namespace Toolshed

/-!
# The language

Which items spell which syntax trees. `Spelled items tree rest` says that the
items before `rest` are written for the tree, and no item is left out. What
carries an expression on stands on its line, and a statement ends at a semicolon,
at a line break, before a closing brace or at the end.
-/

/-- The name, the digits or the characters that an item stands for. -/
def Item.text (item : Item) : String :=
  item.token.value.getD item.token.raw

/-- The symbol that is written for a binary operator. -/
def BinaryOp.sign : BinaryOp → Symbol
  | .add => .plus
  | .subtract => .minus
  | .multiply => .star
  | .divide => .slash
  | .remainder => .percent
  | .equal => .equalEqual
  | .notEqual => .bangEqual
  | .less => .less
  | .lessEqual => .lessEqual
  | .greater => .greater
  | .greaterEqual => .greaterEqual
  | .and => .andAnd
  | .or => .orOr

def BinaryOp.level : BinaryOp → Nat
  | .or => 0
  | .and => 1
  | .equal | .notEqual => 2
  | .less | .lessEqual | .greater | .greaterEqual => 3
  | .add | .subtract => 4
  | .multiply | .divide | .remainder => 5

def BinaryOp.levels : Nat :=
  6

def UnaryOp.sign : UnaryOp → Symbol
  | .negate => .minus
  | .not => .bang

/-- The end of a statement. -/
inductive Terminated : List Item → List Item → Prop where
  | semicolon {item : Item} {rest : List Item} :
      item.kind = .symbol .semicolon →
      Terminated (item :: rest) rest
  | lineBreak {item : Item} {rest : List Item} :
      item.fresh = true →
      Terminated (item :: rest) (item :: rest)
  | closingBrace {item : Item} {rest : List Item} :
      item.kind = .symbol .rightBrace →
      Terminated (item :: rest) (item :: rest)
  | finish : Terminated [] []

mutual

/-- Items spell a type: a name, or a function type. -/
inductive TypeExpression.Spelled : List Item → TypeExpression → List Item → Prop where
  | named {id : NodeId} {item : Item} {rest : List Item} :
      item.kind = .identifier →
      TypeExpression.Spelled (item :: rest) (.named id item.text) rest
  | function
      {id : NodeId}
      {opening closing arrow : Item}
      {inside after rest : List Item}
      {parameters : List TypeExpression}
      {result : TypeExpression} :
      opening.kind = .symbol .leftParen →
      TypeExpression.ListSpelled inside parameters (closing :: arrow :: after) →
      closing.kind = .symbol .rightParen →
      arrow.kind = .symbol .arrow →
      result.Spelled after rest →
      TypeExpression.Spelled (opening :: inside) (.function id parameters result) rest

/-- Items spell types divided by commas, or nothing. -/
inductive TypeExpression.ListSpelled :
    List Item → List TypeExpression → List Item → Prop where
  | nothing {rest : List Item} : TypeExpression.ListSpelled rest [] rest
  | something {items rest : List Item} {types : List TypeExpression} :
      TypeExpression.AllSpelled items types rest →
      TypeExpression.ListSpelled items types rest

/-- Items spell types divided by commas, at least one. -/
inductive TypeExpression.AllSpelled :
    List Item → List TypeExpression → List Item → Prop where
  | last {items rest : List Item} {type : TypeExpression} :
      type.Spelled items rest →
      TypeExpression.AllSpelled items [type] rest
  | more
      {items others rest : List Item}
      {comma : Item}
      {type : TypeExpression}
      {types : List TypeExpression} :
      type.Spelled items (comma :: others) →
      comma.kind = .symbol .comma →
      TypeExpression.AllSpelled others types rest →
      TypeExpression.AllSpelled items (type :: types) rest

end

/-- Items spell a type after a colon, or nothing. -/
inductive TypeExpression.AscriptionSpelled :
    List Item → Option TypeExpression → List Item → Prop where
  | nothing {rest : List Item} : TypeExpression.AscriptionSpelled rest none rest
  | written {colon : Item} {items rest : List Item} {type : TypeExpression} :
      colon.kind = .symbol .colon →
      type.Spelled items rest →
      TypeExpression.AscriptionSpelled (colon :: items) (some type) rest

/-- Items spell a parameter. -/
inductive Parameter.Spelled : List Item → Parameter → List Item → Prop where
  | named
      {id : NodeId}
      {item colon : Item}
      {items rest : List Item}
      {type : TypeExpression} :
      item.kind = .identifier →
      colon.kind = .symbol .colon →
      type.Spelled items rest →
      Parameter.Spelled (item :: colon :: items) (.named id item.text type) rest

/-- Items spell parameters divided by commas, at least one. -/
inductive Parameter.AllSpelled : List Item → List Parameter → List Item → Prop where
  | last {items rest : List Item} {parameter : Parameter} :
      parameter.Spelled items rest →
      Parameter.AllSpelled items [parameter] rest
  | more
      {items others rest : List Item}
      {comma : Item}
      {parameter : Parameter}
      {parameters : List Parameter} :
      parameter.Spelled items (comma :: others) →
      comma.kind = .symbol .comma →
      Parameter.AllSpelled others parameters rest →
      Parameter.AllSpelled items (parameter :: parameters) rest

def Parameter.name? : Parameter → Option String
  | .named _ name _ => some name
  | .stray _ => none

def DistinctParameters (parameters : List Parameter) : Prop :=
  (parameters.filterMap Parameter.name?).Nodup

inductive Parameter.ListSpelled : List Item → List Parameter → List Item → Prop where
  | nothing {opening closing : Item} {rest : List Item} :
      opening.kind = .symbol .leftParen →
      closing.kind = .symbol .rightParen →
      Parameter.ListSpelled (opening :: closing :: rest) [] rest
  | something
      {opening closing : Item}
      {items rest : List Item}
      {parameters : List Parameter} :
      opening.kind = .symbol .leftParen →
      Parameter.AllSpelled items parameters (closing :: rest) →
      closing.kind = .symbol .rightParen →
      DistinctParameters parameters →
      Parameter.ListSpelled (opening :: items) parameters rest

mutual

/--
Items spell an expression of binary operators of a level and of tighter ones.
Operators of one level associate to the left.
-/
inductive Expression.Spelled : Nat → List Item → Expression → List Item → Prop where
  | unary {items rest : List Item} {expression : Expression} :
      expression.UnarySpelled items rest →
      Expression.Spelled BinaryOp.levels items expression rest
  | tighter {level : Nat} {items rest : List Item} {expression : Expression} :
      expression.Spelled (level + 1) items rest →
      Expression.Spelled level items expression rest
  | binary
      {id : NodeId}
      {level : Nat}
      {operator : BinaryOp}
      {sign : Item}
      {items others rest : List Item}
      {left right : Expression} :
      operator.level = level →
      left.Spelled level items (sign :: others) →
      sign.kind = .symbol operator.sign →
      sign.fresh = false →
      right.Spelled (level + 1) others rest →
      Expression.Spelled level items (.binary id operator left right) rest

/-- Items spell an expression after unary operators. -/
inductive Expression.UnarySpelled : List Item → Expression → List Item → Prop where
  | operator
      {id : NodeId}
      {operator : UnaryOp}
      {sign : Item}
      {items rest : List Item}
      {operand : Expression} :
      sign.kind = .symbol operator.sign →
      operand.UnarySpelled items rest →
      Expression.UnarySpelled (sign :: items) (.unary id operator operand) rest
  | operand {items rest : List Item} {expression : Expression} :
      expression.PostfixSpelled items rest →
      Expression.UnarySpelled items expression rest

inductive Expression.PostfixSpelled : List Item → Expression → List Item → Prop where
  | primary {items rest : List Item} {expression : Expression} :
      expression.PrimarySpelled items rest →
      Expression.PostfixSpelled items expression rest
  | call
      {id : NodeId}
      {opening closing : Item}
      {items inside rest : List Item}
      {callee : Expression}
      {arguments : List Expression} :
      callee.PostfixSpelled items (opening :: inside) →
      opening.kind = .symbol .leftParen →
      opening.fresh = false →
      Expression.ListSpelled inside arguments (closing :: rest) →
      closing.kind = .symbol .rightParen →
      Expression.PostfixSpelled items (.call id callee arguments) rest
  | member
      {id : NodeId}
      {dot item : Item}
      {items rest : List Item}
      {object : Expression} :
      object.PostfixSpelled items (dot :: item :: rest) →
      dot.kind = .symbol .dot →
      dot.fresh = false →
      item.kind = .identifier →
      Expression.PostfixSpelled items (.member id object item.text) rest

inductive Expression.PrimarySpelled : List Item → Expression → List Item → Prop where
  | number {id : NodeId} {value : Double} {item : Item} {rest : List Item} :
      item.kind = .number →
      Double.ofText? item.text = some value →
      Expression.PrimarySpelled (item :: rest) (.number id value) rest
  | string {id : NodeId} {item : Item} {rest : List Item} :
      item.kind = .string →
      Expression.PrimarySpelled (item :: rest) (.string id (item.token.value.getD "")) rest
  | trueWord {id : NodeId} {item : Item} {rest : List Item} :
      item.kind = .keyword .trueWord →
      Expression.PrimarySpelled (item :: rest) (.boolean id true) rest
  | falseWord {id : NodeId} {item : Item} {rest : List Item} :
      item.kind = .keyword .falseWord →
      Expression.PrimarySpelled (item :: rest) (.boolean id false) rest
  | unit {id : NodeId} {opening closing : Item} {rest : List Item} :
      opening.kind = .symbol .leftParen →
      closing.kind = .symbol .rightParen →
      Expression.PrimarySpelled (opening :: closing :: rest) (.unit id) rest
  | parenthesised
      {opening closing : Item}
      {items rest : List Item}
      {expression : Expression} :
      opening.kind = .symbol .leftParen →
      expression.Spelled 0 items (closing :: rest) →
      closing.kind = .symbol .rightParen →
      Expression.PrimarySpelled (opening :: items) expression rest
  | identifier {id : NodeId} {item : Item} {rest : List Item} :
      item.kind = .identifier →
      Expression.PrimarySpelled (item :: rest) (.identifier id item.text) rest
  | lambda
      {id : NodeId}
      {word : Item}
      {items typed after rest : List Item}
      {parameters : List Parameter}
      {result : Option TypeExpression}
      {body : LambdaBody} :
      word.kind = .keyword .funWord →
      Parameter.ListSpelled items parameters typed →
      TypeExpression.AscriptionSpelled typed result after →
      body.Spelled after rest →
      Expression.PrimarySpelled (word :: items) (.lambda id parameters result body) rest

/-- Items spell expressions divided by commas, or nothing. -/
inductive Expression.ListSpelled : List Item → List Expression → List Item → Prop where
  | nothing {rest : List Item} : Expression.ListSpelled rest [] rest
  | something {items rest : List Item} {expressions : List Expression} :
      Expression.AllSpelled items expressions rest →
      Expression.ListSpelled items expressions rest

/-- Items spell expressions divided by commas, at least one. -/
inductive Expression.AllSpelled : List Item → List Expression → List Item → Prop where
  | last {items rest : List Item} {expression : Expression} :
      expression.Spelled 0 items rest →
      Expression.AllSpelled items [expression] rest
  | more
      {items others rest : List Item}
      {comma : Item}
      {expression : Expression}
      {expressions : List Expression} :
      expression.Spelled 0 items (comma :: others) →
      comma.kind = .symbol .comma →
      Expression.AllSpelled others expressions rest →
      Expression.AllSpelled items (expression :: expressions) rest

/-- Items spell the body of a lambda. -/
inductive LambdaBody.Spelled : List Item → LambdaBody → List Item → Prop where
  | expression {arrow : Item} {items rest : List Item} {body : Expression} :
      arrow.kind = .symbol .fatArrow →
      body.Spelled 0 items rest →
      LambdaBody.Spelled (arrow :: items) (.expression body) rest
  | block {items rest : List Item} {body : Block} :
      body.Spelled items rest →
      LambdaBody.Spelled items (.block body) rest

/-- Items spell a block. -/
inductive Block.Spelled : List Item → Block → List Item → Prop where
  | braces
      {id : NodeId}
      {opening closing : Item}
      {items rest : List Item}
      {statements : List Statement} :
      opening.kind = .symbol .leftBrace →
      Statement.AllSpelled items statements (closing :: rest) →
      closing.kind = .symbol .rightBrace →
      Block.Spelled (opening :: items) (.statements id statements) rest

/-- Items spell statements one after another. -/
inductive Statement.AllSpelled : List Item → List Statement → List Item → Prop where
  | nothing {rest : List Item} : Statement.AllSpelled rest [] rest
  | more
      {items others rest : List Item}
      {statement : Statement}
      {statements : List Statement} :
      statement.Spelled items others →
      Statement.AllSpelled others statements rest →
      Statement.AllSpelled items (statement :: statements) rest

/-- Items spell a statement. -/
inductive Statement.Spelled : List Item → Statement → List Item → Prop where
  | declaration {items rest : List Item} {declared : Declaration} :
      declared.Spelled items rest →
      Statement.Spelled items (.declaration declared) rest
  | returnNothing {id : NodeId} {word : Item} {items rest : List Item} :
      word.kind = .keyword .returnWord →
      Terminated items rest →
      Statement.Spelled (word :: items) (.returnNothing id) rest
  | returnValue
      {id : NodeId}
      {word first : Item}
      {items after rest : List Item}
      {value : Expression} :
      word.kind = .keyword .returnWord →
      first.fresh = false →
      value.Spelled 0 (first :: items) after →
      Terminated after rest →
      Statement.Spelled (word :: first :: items) (.returnValue id value) rest
  | conditional
      {id : NodeId}
      {word : Item}
      {items inside after rest : List Item}
      {condition : Expression}
      {thenBlock : Block}
      {otherwise : ElseBranch} :
      word.kind = .keyword .ifWord →
      condition.Spelled 0 items inside →
      thenBlock.Spelled inside after →
      otherwise.Spelled after rest →
      Statement.Spelled (word :: items) (.conditional id condition thenBlock otherwise) rest
  | loop
      {id : NodeId}
      {word : Item}
      {items inside rest : List Item}
      {condition : Expression}
      {body : Block} :
      word.kind = .keyword .whileWord →
      condition.Spelled 0 items inside →
      body.Spelled inside rest →
      Statement.Spelled (word :: items) (.loop id condition body) rest
  | assignment
      {id : NodeId}
      {item sign : Item}
      {items after rest : List Item}
      {value : Expression} :
      item.kind = .identifier →
      sign.kind = .symbol .equal →
      value.Spelled 0 items after →
      Terminated after rest →
      Statement.Spelled (item :: sign :: items) (.assignment id item.text value) rest
  | expression
      {id : NodeId}
      {items after rest : List Item}
      {expression : Expression} :
      expression.Spelled 0 items after →
      Terminated after rest →
      Statement.Spelled items (.expression id expression) rest

inductive ElseBranch.Spelled : List Item → ElseBranch → List Item → Prop where
  | nothing {rest : List Item} : ElseBranch.Spelled rest .nothing rest
  | block {word : Item} {items rest : List Item} {block : Block} :
      word.kind = .keyword .elseWord →
      block.Spelled items rest →
      ElseBranch.Spelled (word :: items) (.block block) rest
  | conditional {word : Item} {items rest : List Item} {statement : Statement} :
      word.kind = .keyword .elseWord →
      statement.isConditional = true →
      statement.Spelled items rest →
      ElseBranch.Spelled (word :: items) (.statement statement) rest

/-- Items spell a declaration of a value or of a function. -/
inductive Declaration.Spelled : List Item → Declaration → List Item → Prop where
  | letValue
      {id : NodeId}
      {word item sign : Item}
      {typed items after rest : List Item}
      {type : Option TypeExpression}
      {initial : Expression} :
      word.kind = .keyword .letWord →
      item.kind = .identifier →
      TypeExpression.AscriptionSpelled typed type (sign :: items) →
      sign.kind = .symbol .equal →
      initial.Spelled 0 items after →
      Terminated after rest →
      Declaration.Spelled (word :: item :: typed) (.value id false item.text type initial) rest
  | varValue
      {id : NodeId}
      {word item sign : Item}
      {typed items after rest : List Item}
      {type : Option TypeExpression}
      {initial : Expression} :
      word.kind = .keyword .varWord →
      item.kind = .identifier →
      TypeExpression.AscriptionSpelled typed type (sign :: items) →
      sign.kind = .symbol .equal →
      initial.Spelled 0 items after →
      Terminated after rest →
      Declaration.Spelled (word :: item :: typed) (.value id true item.text type initial) rest
  | function
      {id : NodeId}
      {word item : Item}
      {items typed after rest : List Item}
      {parameters : List Parameter}
      {result : Option TypeExpression}
      {body : Block} :
      word.kind = .keyword .funWord →
      item.kind = .identifier →
      Parameter.ListSpelled items parameters typed →
      TypeExpression.AscriptionSpelled typed result after →
      body.Spelled after rest →
      Declaration.Spelled (word :: item :: items) (.function id item.text parameters result body)
        rest

end

inductive Declaration.MembersSpelled : List Item → List Declaration → List Item → Prop where
  | nothing {rest : List Item} : Declaration.MembersSpelled rest [] rest
  | more
      {items others rest : List Item}
      {member : Declaration}
      {members : List Declaration} :
      member.Spelled items others →
      Declaration.MembersSpelled others members rest →
      Declaration.MembersSpelled items (member :: members) rest

/-- Items spell the members of a class in braces, or nothing. -/
inductive Declaration.BodySpelled : List Item → List Declaration → List Item → Prop where
  | nothing {rest : List Item} : Declaration.BodySpelled rest [] rest
  | braces
      {opening closing : Item}
      {items rest : List Item}
      {members : List Declaration} :
      opening.kind = .symbol .leftBrace →
      Declaration.MembersSpelled items members (closing :: rest) →
      closing.kind = .symbol .rightBrace →
      Declaration.BodySpelled (opening :: items) members rest

inductive Declaration.TopSpelled : List Item → Declaration → List Item → Prop where
  | member {items rest : List Item} {declared : Declaration} :
      declared.Spelled items rest →
      Declaration.TopSpelled items declared rest
  | classType
      {id : NodeId}
      {word item : Item}
      {items inside rest : List Item}
      {parameters : List Parameter}
      {members : List Declaration} :
      word.kind = .keyword .classWord →
      item.kind = .identifier →
      Parameter.ListSpelled items parameters inside →
      Declaration.BodySpelled inside members rest →
      Declaration.TopSpelled (word :: item :: items) (.classType id item.text parameters members)
        rest

inductive Declaration.AllTopSpelled : List Item → List Declaration → List Item → Prop where
  | nothing {rest : List Item} : Declaration.AllTopSpelled rest [] rest
  | more
      {items others rest : List Item}
      {declared : Declaration}
      {declarations : List Declaration} :
      declared.TopSpelled items others →
      Declaration.AllTopSpelled others declarations rest →
      Declaration.AllTopSpelled items (declared :: declarations) rest

/-- Items spell names, each after a dot. -/
inductive SegmentsSpelled : List Item → List String → List Item → Prop where
  | nothing {rest : List Item} : SegmentsSpelled rest [] rest
  | more {dot item : Item} {items rest : List Item} {segments : List String} :
      dot.kind = .symbol .dot →
      item.kind = .identifier →
      SegmentsSpelled items segments rest →
      SegmentsSpelled (dot :: item :: items) (item.text :: segments) rest

/-- Items spell the name that is chosen for an import, or nothing. -/
inductive ChosenSpelled : List Item → Option String → List Item → Prop where
  | nothing {rest : List Item} : ChosenSpelled rest none rest
  | chosen {word item : Item} {rest : List Item} :
      word.kind = .keyword .asWord →
      item.kind = .identifier →
      ChosenSpelled (word :: item :: rest) (some item.text) rest

/-- Items spell an import. -/
inductive Import.Spelled : List Item → Import → List Item → Prop where
  | path
      {id : NodeId}
      {word item : Item}
      {items chosen after rest : List Item}
      {segments : List String}
      {chosenName : Option String} :
      word.kind = .keyword .importWord →
      item.kind = .identifier →
      SegmentsSpelled items segments chosen →
      ChosenSpelled chosen chosenName after →
      Terminated after rest →
      Import.Spelled (word :: item :: items) ⟨id, ⟨item.text :: segments⟩, chosenName⟩ rest

/-- Items spell imports one after another. -/
inductive Import.AllSpelled : List Item → List Import → List Item → Prop where
  | nothing {rest : List Item} : Import.AllSpelled rest [] rest
  | more {items others rest : List Item} {entry : Import} {imports : List Import} :
      entry.Spelled items others →
      Import.AllSpelled others imports rest →
      Import.AllSpelled items (entry :: imports) rest

/-- Items spell a file: its imports and then its declarations. -/
def SourceFile.Spelled (items : List Item) (file : SourceFile) : Prop :=
  ∃ declared,
    Import.AllSpelled items file.imports declared ∧
      Declaration.AllTopSpelled declared file.declarations []

end Toolshed
