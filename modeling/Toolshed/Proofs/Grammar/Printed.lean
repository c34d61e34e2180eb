import Toolshed.Proofs.Grammar.Language
import Toolshed.Script.Literal
import Toolshed.Token.Scan

namespace Toolshed

/-!
# Printed trees

A printer from syntax trees to tokens. Every statement and declaration starts a
line, and every operand, callee and member object that is more than one word is
in parentheses.
-/

namespace Item

/-- An item of a printed file; it does not matter where it stands. -/
def printed (fresh : Bool) (kind : TokenKind) (raw : String) (value : Option String) : Item :=
  ⟨⟨kind, raw, value, .point .origin⟩, fresh⟩

def word (fresh : Bool) (keyword : Keyword) : Item :=
  printed fresh (.keyword keyword) keyword.text (some keyword.text)

def symbol (fresh : Bool) (sign : Symbol) : Item :=
  printed fresh (.symbol sign) sign.text none

def name (fresh : Bool) (text : String) : Item :=
  printed fresh .identifier text (some text)

def number (fresh : Bool) (digits : String) : Item :=
  printed fresh .number digits (some digits)

def string (fresh : Bool) (text : String) : Item :=
  printed fresh .string (Script.quote text) (some text)

def tokens (item : Item) : List Token :=
  if item.fresh then [⟨.whitespace, "\n", none, .point .origin⟩, item.token] else [item.token]

def divided : List (List Item) → List Item
  | [] => []
  | [only] => only
  | first :: second :: rest => first ++ symbol false .comma :: divided (second :: rest)

def enclosed (compound fresh : Bool) (phrase : Bool → List Item) : List Item :=
  if compound then
    symbol fresh .leftParen :: (phrase false ++ [symbol false .rightParen])
  else
    phrase fresh

end Item

mutual

def TypeExpression.items : TypeExpression → List Item
  | .named _ name => [.name false name]
  | .function _ parameters result =>
    .symbol false .leftParen ::
      (Item.divided (TypeExpression.itemsOfAll parameters) ++
        .symbol false .rightParen :: .symbol false .arrow :: result.items)
  | .stray _ => []

def TypeExpression.itemsOfAll : List TypeExpression → List (List Item)
  | [] => []
  | first :: rest => first.items :: TypeExpression.itemsOfAll rest

end

/-- The items of a type after a colon, if there is one. -/
def TypeExpression.ascriptionItems : Option TypeExpression → List Item
  | none => []
  | some type => .symbol false .colon :: type.items

def Parameter.items : Parameter → List Item
  | .named _ name type => .name false name :: .symbol false .colon :: type.items
  | .stray _ => []

def Parameter.listItems (parameters : List Parameter) : List Item :=
  .symbol false .leftParen ::
    (Item.divided (parameters.map Parameter.items) ++ [.symbol false .rightParen])

def Expression.isCompound : Expression → Bool
  | .number _ _ | .string _ _ | .boolean _ _ | .unit _ | .identifier _ _ | .stray _ => false
  | .binary _ _ _ _ | .unary _ _ _ | .call _ _ _ | .member _ _ _ | .lambda _ _ _ _ => true

def Keyword.ofMutable (mutable : Bool) : Keyword :=
  if mutable then .varWord else .letWord

section

variable (digits : Double → String)

mutual

def Expression.items : Expression → (fresh : Bool) → List Item
  | .number _ value, fresh => [.number fresh (digits value)]
  | .string _ value, fresh => [.string fresh value]
  | .boolean _ value, fresh => [.word fresh (if value then .trueWord else .falseWord)]
  | .unit _, fresh => [.symbol fresh .leftParen, .symbol false .rightParen]
  | .identifier _ name, fresh => [.name fresh name]
  | .binary _ operator left right, fresh =>
    Item.enclosed left.isCompound fresh (fun fresh => left.items fresh) ++
      .symbol false operator.sign ::
        Item.enclosed right.isCompound false (fun fresh => right.items fresh)
  | .unary _ operator operand, fresh =>
    .symbol fresh operator.sign ::
      Item.enclosed operand.isCompound false (fun fresh => operand.items fresh)
  | .call _ callee arguments, fresh =>
    Item.enclosed callee.isCompound fresh (fun fresh => callee.items fresh) ++
      .symbol false .leftParen ::
        (Item.divided (Expression.itemsOfAll arguments) ++ [.symbol false .rightParen])
  | .member _ object name, fresh =>
    Item.enclosed object.isCompound fresh (fun fresh => object.items fresh) ++
      [.symbol false .dot, .name false name]
  | .lambda _ parameters result body, fresh =>
    .word fresh .funWord ::
      (Parameter.listItems parameters ++
        (TypeExpression.ascriptionItems result ++ body.items))
  | .stray _, _ => []

def Expression.itemsOfAll : List Expression → List (List Item)
  | [] => []
  | first :: rest => first.items false :: Expression.itemsOfAll rest

def LambdaBody.items : LambdaBody → List Item
  | .expression body => .symbol false .fatArrow :: body.items false
  | .block body => body.items

def Block.items : Block → List Item
  | .statements _ statements =>
    .symbol false .leftBrace ::
      (Statement.itemsOfAll statements ++ [.symbol true .rightBrace])
  | .stray _ => []

def Statement.itemsOfAll : List Statement → List Item
  | [] => []
  | first :: rest => first.items true ++ Statement.itemsOfAll rest

def Statement.items : Statement → (fresh : Bool) → List Item
  | .declaration declared, fresh => declared.items fresh
  | .expression _ expression, fresh => expression.items fresh
  | .returnNothing _, fresh => [.word fresh .returnWord]
  | .returnValue _ value, fresh => .word fresh .returnWord :: value.items false
  | .conditional _ condition thenBlock otherwise, fresh =>
    .word fresh .ifWord ::
      (condition.items false ++ (thenBlock.items ++ otherwise.items))
  | .loop _ condition body, fresh =>
    .word fresh .whileWord :: (condition.items false ++ body.items)
  | .assignment _ target value, fresh =>
    .name fresh target :: .symbol false .equal :: value.items false
  | .stray _, _ => []

/-- The items of the second branch of an `if`. -/
def ElseBranch.items : ElseBranch → List Item
  | .nothing => []
  | .block block => .word false .elseWord :: block.items
  | .statement statement => .word false .elseWord :: statement.items false

def Declaration.items : Declaration → (fresh : Bool) → List Item
  | .value _ mutable name type initial, fresh =>
    .word fresh (.ofMutable mutable) :: .name false name ::
      (TypeExpression.ascriptionItems type ++
        .symbol false .equal :: initial.items false)
  | .function _ name parameters result body, fresh =>
    .word fresh .funWord :: .name false name ::
      (Parameter.listItems parameters ++
        (TypeExpression.ascriptionItems result ++ body.items))
  | .classType _ name parameters members, fresh =>
    .word fresh .classWord :: .name false name ::
      (Parameter.listItems parameters ++
        .symbol false .leftBrace ::
          (Declaration.itemsOfAll members ++ [.symbol true .rightBrace]))
  | .stray _, _ => []

def Declaration.itemsOfAll : List Declaration → List Item
  | [] => []
  | first :: rest => first.items true ++ Declaration.itemsOfAll rest

end

end

def ModulePath.segmentItems : List String → List Item
  | [] => []
  | segment :: rest => .symbol false .dot :: .name false segment :: segmentItems rest

def ModulePath.items (path : ModulePath) : List Item :=
  match path.segments with
  | [] => []
  | first :: rest => .name false first :: segmentItems rest

def Import.chosenItems : Option String → List Item
  | none => []
  | some chosen => [.word false .asWord, .name false chosen]

def Import.items (entry : Import) : List Item :=
  .word true .importWord :: (entry.path.items ++ Import.chosenItems entry.chosenName)

/-- The items of a file: its imports and then its declarations. -/
def SourceFile.items (digits : Double → String) (file : SourceFile) : List Item :=
  file.imports.flatMap Import.items ++ Declaration.itemsOfAll digits file.declarations

/-- The tokens of a file; numbers are written with the digits that are asked for. -/
def SourceFile.tokens (digits : Double → String) (file : SourceFile) : List Token :=
  (file.items digits).flatMap Item.tokens ++ [.finish .origin]

mutual

def TypeExpression.Printable : TypeExpression → Prop
  | .named _ _ => True
  | .function _ parameters result => TypeExpression.AllPrintable parameters ∧ result.Printable
  | .stray _ => False

def TypeExpression.AllPrintable : List TypeExpression → Prop
  | [] => True
  | first :: rest => first.Printable ∧ TypeExpression.AllPrintable rest

end

def Parameter.Printable : Parameter → Prop
  | .named _ _ type => type.Printable
  | .stray _ => False

structure PrintableSignature
    (parameters : List Parameter)
    (result : Option TypeExpression) : Prop where
  each : ∀ parameter ∈ parameters, parameter.Printable
  distinct : DistinctParameters parameters
  result : ∀ type ∈ result, type.Printable

section

variable (digits : Double → String)

mutual

/--
An expression that can be written: it is one all the way down, parameters of one
list have different names, and the digits of a number stand for it.
-/
def Expression.Printable : Expression → Prop
  | .number _ value => Double.ofText? (digits value) = some value
  | .string _ _ | .boolean _ _ | .unit _ | .identifier _ _ => True
  | .binary _ _ left right => left.Printable ∧ right.Printable
  | .unary _ _ operand => operand.Printable
  | .call _ callee arguments =>
    callee.Printable ∧ Expression.AllPrintable arguments
  | .member _ object _ => object.Printable
  | .lambda _ parameters result body =>
    PrintableSignature parameters result ∧ body.Printable
  | .stray _ => False

def Expression.AllPrintable : List Expression → Prop
  | [] => True
  | first :: rest => first.Printable ∧ Expression.AllPrintable rest

def LambdaBody.Printable : LambdaBody → Prop
  | .expression body => body.Printable
  | .block body => body.Printable

def Block.Printable : Block → Prop
  | .statements _ statements => Statement.AllPrintable statements
  | .stray _ => False

def Statement.AllPrintable : List Statement → Prop
  | [] => True
  | first :: rest => first.Printable ∧ Statement.AllPrintable rest

def Statement.Printable : Statement → Prop
  | .declaration declared => declared.Printable
  | .expression _ expression => expression.Printable
  | .returnNothing _ => True
  | .returnValue _ value => value.Printable
  | .conditional _ condition thenBlock otherwise =>
    condition.Printable ∧ thenBlock.Printable ∧ otherwise.Printable
  | .loop _ condition body => condition.Printable ∧ body.Printable
  | .assignment _ _ value => value.Printable
  | .stray _ => False

def ElseBranch.Printable : ElseBranch → Prop
  | .nothing => True
  | .block block => block.Printable
  | .statement statement => statement.isConditional = true ∧ statement.Printable

/-- A declaration of a value or of a function that can be written. -/
def Declaration.Printable : Declaration → Prop
  | .value _ _ _ type initial =>
    (∀ written ∈ type, written.Printable) ∧ initial.Printable
  | .function _ _ parameters result body =>
    PrintableSignature parameters result ∧ body.Printable
  | .classType _ _ _ _ | .stray _ => False

end

end

/-- A declaration at the top of a file that can be written. -/
def Declaration.TopPrintable (digits : Double → String) : Declaration → Prop
  | .classType _ _ parameters members =>
    PrintableSignature parameters none ∧ ∀ member ∈ members, member.Printable digits
  | declared => declared.Printable digits

/-- A file that can be written; the path of an import has at least one part. -/
structure SourceFile.Printable (digits : Double → String) (file : SourceFile) : Prop where
  imports : ∀ entry ∈ file.imports, entry.path.segments ≠ []
  declarations : ∀ declared ∈ file.declarations, declared.TopPrintable digits

mutual

def TypeExpression.unnumbered : TypeExpression → TypeExpression
  | .named _ name => .named 0 name
  | .function _ parameters result =>
    .function 0 (TypeExpression.allUnnumbered parameters) result.unnumbered
  | .stray _ => .stray 0

def TypeExpression.allUnnumbered : List TypeExpression → List TypeExpression
  | [] => []
  | first :: rest => first.unnumbered :: TypeExpression.allUnnumbered rest

end

def Parameter.unnumbered : Parameter → Parameter
  | .named _ name type => .named 0 name type.unnumbered
  | .stray _ => .stray 0

mutual

def Expression.unnumbered : Expression → Expression
  | .number _ value => .number 0 value
  | .string _ value => .string 0 value
  | .boolean _ value => .boolean 0 value
  | .unit _ => .unit 0
  | .identifier _ name => .identifier 0 name
  | .binary _ operator left right => .binary 0 operator left.unnumbered right.unnumbered
  | .unary _ operator operand => .unary 0 operator operand.unnumbered
  | .call _ callee arguments => .call 0 callee.unnumbered (Expression.allUnnumbered arguments)
  | .member _ object name => .member 0 object.unnumbered name
  | .lambda _ parameters result body =>
    .lambda 0 (parameters.map Parameter.unnumbered) (result.map TypeExpression.unnumbered)
      body.unnumbered
  | .stray _ => .stray 0

def Expression.allUnnumbered : List Expression → List Expression
  | [] => []
  | first :: rest => first.unnumbered :: Expression.allUnnumbered rest

/-- The body of a lambda without the numbers of its nodes. -/
def LambdaBody.unnumbered : LambdaBody → LambdaBody
  | .expression body => .expression body.unnumbered
  | .block body => .block body.unnumbered

def Block.unnumbered : Block → Block
  | .statements _ statements => .statements 0 (Statement.allUnnumbered statements)
  | .stray _ => .stray 0

def Statement.allUnnumbered : List Statement → List Statement
  | [] => []
  | first :: rest => first.unnumbered :: Statement.allUnnumbered rest

def Statement.unnumbered : Statement → Statement
  | .declaration declared => .declaration declared.unnumbered
  | .expression _ expression => .expression 0 expression.unnumbered
  | .returnNothing _ => .returnNothing 0
  | .returnValue _ value => .returnValue 0 value.unnumbered
  | .conditional _ condition thenBlock otherwise =>
    .conditional 0 condition.unnumbered thenBlock.unnumbered otherwise.unnumbered
  | .loop _ condition body => .loop 0 condition.unnumbered body.unnumbered
  | .assignment _ target value => .assignment 0 target value.unnumbered
  | .stray _ => .stray 0

/-- The second branch of an `if` without the numbers of its nodes. -/
def ElseBranch.unnumbered : ElseBranch → ElseBranch
  | .nothing => .nothing
  | .block block => .block block.unnumbered
  | .statement statement => .statement statement.unnumbered

def Declaration.unnumbered : Declaration → Declaration
  | .value _ mutable name type initial =>
    .value 0 mutable name (type.map TypeExpression.unnumbered) initial.unnumbered
  | .function _ name parameters result body =>
    .function 0 name (parameters.map Parameter.unnumbered)
      (result.map TypeExpression.unnumbered) body.unnumbered
  | .classType _ name parameters members =>
    .classType 0 name (parameters.map Parameter.unnumbered) (Declaration.allUnnumbered members)
  | .stray _ => .stray 0

def Declaration.allUnnumbered : List Declaration → List Declaration
  | [] => []
  | first :: rest => first.unnumbered :: Declaration.allUnnumbered rest

end

attribute [simp] TypeExpression.unnumbered TypeExpression.allUnnumbered Parameter.unnumbered
  Expression.unnumbered Expression.allUnnumbered LambdaBody.unnumbered Block.unnumbered
  Statement.allUnnumbered Statement.unnumbered ElseBranch.unnumbered Declaration.unnumbered
  Declaration.allUnnumbered

def Import.unnumbered (entry : Import) : Import :=
  { entry with id := 0 }

def SourceFile.unnumbered (file : SourceFile) : SourceFile :=
  ⟨file.imports.map Import.unnumbered, Declaration.allUnnumbered file.declarations⟩

mutual

/-- How many nodes lie on the longest way down into a type. -/
def TypeExpression.height : TypeExpression → Nat
  | .named _ _ | .stray _ => 1
  | .function _ parameters result =>
    1 + max (TypeExpression.heightOfAll parameters) result.height

def TypeExpression.heightOfAll : List TypeExpression → Nat
  | [] => 0
  | first :: rest => max first.height (TypeExpression.heightOfAll rest)

end

def TypeExpression.ascriptionHeight : Option TypeExpression → Nat
  | none => 0
  | some type => type.height

def Parameter.height : Parameter → Nat
  | .named _ _ type => 1 + type.height
  | .stray _ => 1

def Parameter.heightOfAll : List Parameter → Nat
  | [] => 0
  | first :: rest => max first.height (Parameter.heightOfAll rest)

def signatureHeight (parameters : List Parameter) (result : Option TypeExpression) : Nat :=
  max (Parameter.heightOfAll parameters) (TypeExpression.ascriptionHeight result)

mutual

def Expression.height : Expression → Nat
  | .number _ _ | .string _ _ | .boolean _ _ | .unit _ | .identifier _ _ | .stray _ => 1
  | .binary _ _ left right => 1 + max left.height right.height
  | .unary _ _ operand => 1 + operand.height
  | .call _ callee arguments => 1 + max callee.height (Expression.heightOfAll arguments)
  | .member _ object _ => 1 + object.height
  | .lambda _ parameters result body => 1 + max (signatureHeight parameters result) body.height

def Expression.heightOfAll : List Expression → Nat
  | [] => 0
  | first :: rest => max first.height (Expression.heightOfAll rest)

def LambdaBody.height : LambdaBody → Nat
  | .expression body => body.height
  | .block body => body.height

def Block.height : Block → Nat
  | .statements _ statements => 1 + Statement.heightOfAll statements
  | .stray _ => 1

def Statement.heightOfAll : List Statement → Nat
  | [] => 0
  | first :: rest => max first.height (Statement.heightOfAll rest)

def Statement.height : Statement → Nat
  | .declaration declared => declared.height
  | .expression _ expression => 1 + expression.height
  | .returnNothing _ | .stray _ => 1
  | .returnValue _ value => 1 + value.height
  | .conditional _ condition thenBlock otherwise =>
    1 + max condition.height (max thenBlock.height otherwise.height)
  | .loop _ condition body => 1 + max condition.height body.height
  | .assignment _ _ value => 1 + value.height

def ElseBranch.height : ElseBranch → Nat
  | .nothing => 0
  | .block block => block.height
  | .statement statement => statement.height

def Declaration.height : Declaration → Nat
  | .value _ _ _ type initial =>
    1 + max (TypeExpression.ascriptionHeight type) initial.height
  | .function _ _ parameters result body => 1 + max (signatureHeight parameters result) body.height
  | .classType _ _ parameters members =>
    1 + max (Parameter.heightOfAll parameters) (Declaration.heightOfAll members)
  | .stray _ => 1

def Declaration.heightOfAll : List Declaration → Nat
  | [] => 0
  | first :: rest => max first.height (Declaration.heightOfAll rest)

end

/-- How many nodes lie on the longest way down into a file; an import is one node. -/
def SourceFile.height (file : SourceFile) : Nat :=
  1 + max (if file.imports.isEmpty then 0 else 1) (Declaration.heightOfAll file.declarations)

end Toolshed
