import Toolshed.Diagnostic
import Toolshed.Double.Basic

namespace Toolshed

/-!
# Syntax nodes

The nodes of a source file stand in one store and refer to their children by
number. A node carries no range and no type: those are kept in tables of their
own, by the same numbers.
-/

inductive LambdaForm where
  | expression
  | block
  deriving Repr, DecidableEq

inductive Node where
  | sourceFile (imports declarations : List NodeId)
  | importDecl (path : ModulePath) (chosenName : Option String)
  | letDecl (mutable : Bool) (name : String) (ascription : Option NodeId) (value : NodeId)
  | funDecl (name : String) (parameters : List NodeId) (result : Option NodeId) (body : NodeId)
  | classDecl (name : String) (parameters members : List NodeId)
  | parameter (name : String) (ascription : NodeId)
  | block (statements : List NodeId)
  | expressionStatement (expression : NodeId)
  | returnStatement (value : Option NodeId)
  | ifStatement (condition thenBlock : NodeId) (elseBranch : Option NodeId)
  | whileStatement (condition body : NodeId)
  | assignment (target : String) (value : NodeId)
  | number (value : Double)
  | string (value : String)
  | boolean (value : Bool)
  | unit
  | identifier (name : String)
  | binary (operator : BinaryOp) (left right : NodeId)
  | unary (operator : UnaryOp) (operand : NodeId)
  | call (callee : NodeId) (arguments : List NodeId)
  | member (object : NodeId) (name : String)
  | lambda (parameters : List NodeId) (result : Option NodeId) (form : LambdaForm) (body : NodeId)
  | namedType (name : String)
  | functionType (parameters : List NodeId) (result : NodeId)
  deriving Repr, DecidableEq

namespace Node

def children : Node → List NodeId
  | .sourceFile imports declarations => imports ++ declarations
  | .importDecl _ _ => []
  | .letDecl _ _ ascription value => ascription.toList ++ [value]
  | .funDecl _ parameters result body => parameters ++ result.toList ++ [body]
  | .classDecl _ parameters members => parameters ++ members
  | .parameter _ ascription => [ascription]
  | .block statements => statements
  | .expressionStatement expression => [expression]
  | .returnStatement value => value.toList
  | .ifStatement condition thenBlock elseBranch => [condition, thenBlock] ++ elseBranch.toList
  | .whileStatement condition body => [condition, body]
  | .assignment _ value => [value]
  | .number _ | .string _ | .boolean _ | .unit | .identifier _ => []
  | .binary _ left right => [left, right]
  | .unary _ operand => [operand]
  | .call callee arguments => callee :: arguments
  | .member object _ => [object]
  | .lambda parameters result _ body => parameters ++ result.toList ++ [body]
  | .namedType _ => []
  | .functionType parameters result => parameters ++ [result]

def isExpression : Node → Bool
  | .number _ | .string _ | .boolean _ | .unit | .identifier _ | .binary _ _ _ | .unary _ _
  | .call _ _ | .member _ _ | .lambda _ _ _ _ => true
  | _ => false

end Node

/--
The nodes of a source file with their ranges, by number; every node gets both at
once.
-/
structure Arena where
  nodes : Array Node
  locations : Locations
  deriving Repr, DecidableEq

namespace Arena

def empty : Arena :=
  ⟨#[], #[]⟩

def next (arena : Arena) : NodeId :=
  arena.nodes.size

def add (arena : Arena) (node : Node) (range : Range) : Arena :=
  ⟨arena.nodes.push node, arena.locations.push range⟩

/--
The range of a node; a node that is not there has the range of an empty text.
-/
def rangeOf (arena : Arena) (node : NodeId) : Range :=
  arena.locations.getD node (.point .origin)

def node? (arena : Arena) (id : NodeId) : Option Node :=
  arena.nodes[id]?

def children (arena : Arena) (id : NodeId) : List NodeId :=
  ((arena.node? id).map Node.children).getD []

def expressions (arena : Arena) : List NodeId :=
  (List.range arena.nodes.size).filter fun id =>
    ((arena.node? id).map Node.isExpression).getD false

/-- How many places of nodes there are below other nodes. -/
def places (arena : Arena) : Nat :=
  (arena.nodes.toList.flatMap Node.children).length

theorem length_children_le (arena : Arena) (id : NodeId) :
    (arena.children id).length ≤ arena.places := by
  unfold children node? places
  cases found : arena.nodes[id]? with
  | none => exact Nat.zero_le _
  | some node =>
    have member : node.children ∈ arena.nodes.toList.map Node.children :=
      List.mem_map_of_mem (Array.mem_toList_iff.mpr (Array.mem_of_getElem? found))
    exact (List.sublist_flatten_of_mem member).length_le

/-- A bound on the visits that a stack leads to. -/
def visits (arena : Arena) : (stack : List (Nat × NodeId)) → Nat
  | [] => 0
  | (levels, _) :: stack => Nat.pow (arena.places + 1) levels + arena.visits stack

theorem visits_children (arena : Arena) (levels : Nat) (ids : List NodeId)
    (stack : List (Nat × NodeId)) :
    arena.visits (ids.map (levels, ·) ++ stack) =
      ids.length * Nat.pow (arena.places + 1) levels + arena.visits stack := by
  induction ids with
  | nil => simp
  | cons id ids ih =>
    rw [List.map_cons, List.cons_append, visits, ih, List.length_cons, Nat.succ_mul]
    omega

/--
Visit the nodes on a stack, and put the children of each on it. A node is there
with the levels that may be below it, or nodes in a circle would be visited forever.
-/
def walk (arena : Arena) : (stack : List (Nat × NodeId)) → List NodeId
  | [] => []
  | (0, _) :: stack => arena.walk stack
  | (levels + 1, id) :: stack =>
    id :: arena.walk ((arena.children id).map (levels, ·) ++ stack)
termination_by stack => arena.visits stack
decreasing_by
  · exact Nat.lt_add_of_pos_left Nat.one_pos
  · have few := Nat.mul_le_mul_right (Nat.pow (arena.places + 1) levels)
      (arena.length_children_le id)
    have positive : 0 < Nat.pow (arena.places + 1) levels := Nat.pow_pos (Nat.succ_pos _)
    have next : Nat.pow (arena.places + 1) levels.succ =
        arena.places * Nat.pow (arena.places + 1) levels + Nat.pow (arena.places + 1) levels :=
      (Nat.mul_comm _ _).trans (Nat.succ_mul _ _)
    rw [visits_children, visits]
    omega

end Arena

structure SyntaxTree where
  arena : Arena
  root : NodeId
  deriving Repr, DecidableEq

/-- The nodes reachable from the root, a parent before its children. -/
def SyntaxTree.reachable (tree : SyntaxTree) : List NodeId :=
  tree.arena.walk [(tree.arena.nodes.size, tree.root)]

end Toolshed
