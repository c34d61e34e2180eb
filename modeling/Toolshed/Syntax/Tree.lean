import Toolshed.Syntax.Node

namespace Toolshed

/-!
# Syntax trees by kind

A node does not tell what stands below it. Here the same trees are sorted by kind:
an expression has expressions below it, a block has statements. A node of the
wrong kind for its place is `stray`. Every part keeps the number of its node.
-/

inductive TypeExpression where
  | named (id : NodeId) (name : String)
  | function (id : NodeId) (parameters : List TypeExpression) (result : TypeExpression)
  | stray (id : NodeId)
  deriving Repr

inductive Parameter where
  | named (id : NodeId) (name : String) (type : TypeExpression)
  | stray (id : NodeId)
  deriving Repr

mutual

inductive Expression where
  | number (id : NodeId) (value : Double)
  | string (id : NodeId) (value : String)
  | boolean (id : NodeId) (value : Bool)
  | unit (id : NodeId)
  | identifier (id : NodeId) (name : String)
  | binary (id : NodeId) (operator : BinaryOp) (left right : Expression)
  | unary (id : NodeId) (operator : UnaryOp) (operand : Expression)
  | call (id : NodeId) (callee : Expression) (arguments : List Expression)
  | member (id : NodeId) (object : Expression) (name : String)
  | lambda (id : NodeId) (parameters : List Parameter) (result : Option TypeExpression)
      (body : LambdaBody)
  | stray (id : NodeId)

inductive LambdaBody where
  | expression (body : Expression)
  | block (body : Block)

inductive Block where
  | statements (id : NodeId) (statements : List Statement)
  | stray (id : NodeId)

inductive Statement where
  | declaration (declaration : Declaration)
  | expression (id : NodeId) (expression : Expression)
  | returnNothing (id : NodeId)
  | returnValue (id : NodeId) (value : Expression)
  | conditional (id : NodeId) (condition : Expression) (thenBlock : Block)
      (otherwise : ElseBranch)
  | loop (id : NodeId) (condition : Expression) (body : Block)
  | assignment (id : NodeId) (target : String) (value : Expression)
  | stray (id : NodeId)

inductive ElseBranch where
  | nothing
  | block (block : Block)
  | statement (statement : Statement)

inductive Declaration where
  | value (id : NodeId) (mutable : Bool) (name : String) (type : Option TypeExpression)
      (initial : Expression)
  | function (id : NodeId) (name : String) (parameters : List Parameter)
      (result : Option TypeExpression) (body : Block)
  | classType (id : NodeId) (name : String) (parameters : List Parameter)
      (members : List Declaration)
  | stray (id : NodeId)

end

structure Import where
  id : NodeId
  path : ModulePath
  chosenName : Option String
  deriving Repr, DecidableEq

/--
The name that an import binds: the chosen one, else the last part of the path.
-/
def Import.bindingName (entry : Import) : String :=
  entry.chosenName.getD entry.path.last

structure SourceFile where
  imports : List Import
  declarations : List Declaration

def TypeExpression.id : TypeExpression → NodeId
  | .named id _ | .function id _ _ | .stray id => id

def Expression.id : Expression → NodeId
  | .number id _ | .string id _ | .boolean id _ | .unit id | .identifier id _ | .binary id _ _ _
  | .unary id _ _ | .call id _ _ | .member id _ _ | .lambda id _ _ _ | .stray id => id

def Declaration.id : Declaration → NodeId
  | .value id _ _ _ _ | .function id _ _ _ _ | .classType id _ _ _ | .stray id => id

def Statement.id : Statement → NodeId
  | .declaration declared => declared.id
  | .expression id _ | .returnNothing id | .returnValue id _ | .conditional id _ _ _
  | .loop id _ _ | .assignment id _ _ | .stray id => id

def Statement.isConditional : Statement → Bool
  | .conditional _ _ _ _ => true
  | _ => false

namespace Arena

/-!
## Reading a tree out of a store

Each reader goes down at most `fuel` levels.
-/

def typeAt (arena : Arena) : (fuel : Nat) → NodeId → TypeExpression
  | 0, id => .stray id
  | fuel + 1, id =>
    match arena.node? id with
    | some (.namedType name) => .named id name
    | some (.functionType parameters result) =>
      .function id (parameters.map (arena.typeAt fuel)) (arena.typeAt fuel result)
    | _ => .stray id

def parameterAt (arena : Arena) (fuel : Nat) (id : NodeId) : Parameter :=
  match arena.node? id with
  | some (.parameter name type) => .named id name (arena.typeAt fuel type)
  | _ => .stray id

mutual

def expressionAt (arena : Arena) : (fuel : Nat) → NodeId → Expression
  | 0, id => .stray id
  | fuel + 1, id =>
    match arena.node? id with
    | some (.number value) => .number id value
    | some (.string value) => .string id value
    | some (.boolean value) => .boolean id value
    | some .unit => .unit id
    | some (.identifier name) => .identifier id name
    | some (.binary operator left right) =>
      .binary id operator (arena.expressionAt fuel left) (arena.expressionAt fuel right)
    | some (.unary operator operand) => .unary id operator (arena.expressionAt fuel operand)
    | some (.call callee arguments) =>
      .call id (arena.expressionAt fuel callee) (arguments.map (arena.expressionAt fuel))
    | some (.member object name) => .member id (arena.expressionAt fuel object) name
    | some (.lambda parameters result form body) =>
      .lambda id (parameters.map (arena.parameterAt fuel)) (result.map (arena.typeAt fuel))
        (match form with
          | .expression => .expression (arena.expressionAt fuel body)
          | .block => .block (arena.blockAt fuel body))
    | _ => .stray id

def blockAt (arena : Arena) : (fuel : Nat) → NodeId → Block
  | 0, id => .stray id
  | fuel + 1, id =>
    match arena.node? id with
    | some (.block statements) => .statements id (statements.map (arena.statementAt fuel))
    | _ => .stray id

def statementAt (arena : Arena) : (fuel : Nat) → NodeId → Statement
  | 0, id => .stray id
  | fuel + 1, id =>
    match arena.node? id with
    | some (.letDecl _ _ _ _) | some (.funDecl _ _ _ _) | some (.classDecl _ _ _) =>
      .declaration (arena.declarationAt fuel id)
    | some (.expressionStatement expression) =>
      .expression id (arena.expressionAt fuel expression)
    | some (.returnStatement none) => .returnNothing id
    | some (.returnStatement (some value)) => .returnValue id (arena.expressionAt fuel value)
    | some (.ifStatement condition thenBlock otherwise) =>
      .conditional id (arena.expressionAt fuel condition) (arena.blockAt fuel thenBlock)
        (match otherwise with
          | none => .nothing
          | some branch => arena.elseBranchAt fuel branch)
    | some (.whileStatement condition body) =>
      .loop id (arena.expressionAt fuel condition) (arena.blockAt fuel body)
    | some (.assignment target value) => .assignment id target (arena.expressionAt fuel value)
    | _ => .stray id

def elseBranchAt (arena : Arena) : (fuel : Nat) → NodeId → ElseBranch
  | 0, id => .block (.stray id)
  | fuel + 1, id =>
    match arena.node? id with
    | some (.block _) => .block (arena.blockAt fuel id)
    | _ => .statement (arena.statementAt fuel id)

def declarationAt (arena : Arena) : (fuel : Nat) → NodeId → Declaration
  | 0, id => .stray id
  | fuel + 1, id =>
    match arena.node? id with
    | some (.letDecl mutable name type value) =>
      .value id mutable name (type.map (arena.typeAt fuel)) (arena.expressionAt fuel value)
    | some (.funDecl name parameters result body) =>
      .function id name (parameters.map (arena.parameterAt fuel))
        (result.map (arena.typeAt fuel)) (arena.blockAt fuel body)
    | some (.classDecl name parameters members) =>
      .classType id name (parameters.map (arena.parameterAt fuel))
        (members.map (arena.declarationAt fuel))
    | _ => .stray id

end

def importAt? (arena : Arena) (id : NodeId) : Option Import :=
  match arena.node? id with
  | some (.importDecl path chosenName) => some ⟨id, path, chosenName⟩
  | _ => none

end Arena

namespace SyntaxTree

/--
How deep a reading of the tree has to go: a path meets each node at most once,
and a declaration or a branch is met first for its kind and then for what it
holds.
-/
def depth (tree : SyntaxTree) : Nat :=
  2 * tree.arena.nodes.size

def imports (tree : SyntaxTree) : List Import :=
  match tree.arena.node? tree.root with
  | some (.sourceFile imports _) => imports.filterMap tree.arena.importAt?
  | _ => []

def sourceFile (tree : SyntaxTree) : SourceFile :=
  match tree.arena.node? tree.root with
  | some (.sourceFile _ declarations) =>
    ⟨tree.imports, declarations.map (tree.arena.declarationAt tree.depth)⟩
  | _ => ⟨[], []⟩

end SyntaxTree

end Toolshed
