import Mathlib.Data.List.Nodup
import Mathlib.Logic.Relation
import Toolshed.Syntax.Node

namespace Toolshed

/-!
# Proper stores

A store is proper when its nodes form a forest: children are older than their
parent, no node has two places, and every place holds a node of the kind that it
requires.
-/

section Entrywise

variable {α β : Type} {one : α → List β} {entries : List α} {all : List α → List β}

/-- A function over trees treats a list of trees entry by entry. -/
theorem eq_map_of_cons {one : α → β} (nil : all [] = [])
    (cons : ∀ first rest, all (first :: rest) = one first :: all rest) (entries : List α) :
    all entries = entries.map one := by
  induction entries with
  | nil => exact nil
  | cons first rest ih => rw [cons, ih, List.map_cons]

theorem eq_flatMap_of_cons (nil : all [] = [])
    (cons : ∀ first rest, all (first :: rest) = one first ++ all rest) (entries : List α) :
    all entries = entries.flatMap one := by
  induction entries with
  | nil => exact nil
  | cons first rest ih => rw [cons, ih, List.flatMap_cons]

theorem iff_forall_of_cons {one : α → Prop} {all : List α → Prop} (nil : all [])
    (cons : ∀ first rest, all (first :: rest) ↔ one first ∧ all rest) (entries : List α) :
    all entries ↔ ∀ entry ∈ entries, one entry := by
  induction entries with
  | nil => simpa using nil
  | cons first rest ih => rw [cons, ih, List.forall_mem_cons]

theorem le_of_mem_of_cons {one : α → Nat} {all : List α → Nat} {entry : α}
    (cons : ∀ first rest, all (first :: rest) = max (one first) (all rest))
    (member : entry ∈ entries) : one entry ≤ all entries := by
  induction member with
  | head => exact cons _ _ ▸ Nat.le_max_left _ _
  | tail _ _ ih => exact cons _ _ ▸ Nat.le_trans ih (Nat.le_max_right _ _)

end Entrywise

/-- The kinds of places at which a node can stand. -/
inductive Category where
  | importEntry
  | declaration
  | member
  | parameter
  | type
  | block
  | statement
  | branch
  | expression
  deriving Repr, DecidableEq

def Category.admits : Category → Node → Bool
  | .importEntry, .importDecl _ _ => true
  | .declaration, .letDecl _ _ _ _ | .declaration, .funDecl _ _ _ _
  | .declaration, .classDecl _ _ _ => true
  | .member, .letDecl _ _ _ _ | .member, .funDecl _ _ _ _ => true
  | .parameter, .parameter _ _ => true
  | .type, .namedType _ | .type, .functionType _ _ => true
  | .block, .block _ => true
  | .statement, .letDecl _ _ _ _ | .statement, .funDecl _ _ _ _
  | .statement, .expressionStatement _ | .statement, .returnStatement _
  | .statement, .ifStatement _ _ _ | .statement, .whileStatement _ _
  | .statement, .assignment _ _ => true
  | .branch, .block _ | .branch, .ifStatement _ _ _ => true
  | .expression, node => node.isExpression
  | _, _ => false

/-- The kind of place that the body of a lambda stands at. -/
def LambdaForm.category : LambdaForm → Category
  | .expression => .expression
  | .block => .block

/-- A place of a node and the child that stands there. -/
structure Slot where
  category : Category
  child : NodeId
  deriving Repr, DecidableEq

namespace Node

def slots : Node → List Slot
  | .sourceFile imports declarations =>
    imports.map (.mk .importEntry) ++ declarations.map (.mk .declaration)
  | .importDecl _ _ => []
  | .letDecl _ _ ascription value =>
    ascription.toList.map (.mk .type) ++ [⟨.expression, value⟩]
  | .funDecl _ parameters result body =>
    parameters.map (.mk .parameter) ++ result.toList.map (.mk .type) ++
      [⟨.block, body⟩]
  | .classDecl _ parameters members =>
    parameters.map (.mk .parameter) ++ members.map (.mk .member)
  | .parameter _ ascription => [⟨.type, ascription⟩]
  | .block statements => statements.map (Slot.mk .statement)
  | .expressionStatement expression => [⟨.expression, expression⟩]
  | .returnStatement value => value.toList.map (Slot.mk .expression)
  | .ifStatement condition thenBlock elseBranch =>
    [⟨.expression, condition⟩, ⟨.block, thenBlock⟩] ++
      elseBranch.toList.map (.mk .branch)
  | .whileStatement condition body => [⟨.expression, condition⟩, ⟨.block, body⟩]
  | .assignment _ value => [⟨.expression, value⟩]
  | .number _ | .string _ | .boolean _ | .unit | .identifier _ => []
  | .binary _ left right => [⟨.expression, left⟩, ⟨.expression, right⟩]
  | .unary _ operand => [⟨.expression, operand⟩]
  | .call callee arguments => ⟨.expression, callee⟩ :: arguments.map (Slot.mk .expression)
  | .member object _ => [⟨.expression, object⟩]
  | .lambda parameters result form body =>
    parameters.map (.mk .parameter) ++ result.toList.map (.mk .type) ++
      [⟨form.category, body⟩]
  | .namedType _ => []
  | .functionType parameters result =>
    parameters.map (.mk .type) ++ [⟨.type, result⟩]

def names : Node → List String
  | .importDecl path chosenName => path.last :: path.segments ++ chosenName.toList
  | .letDecl _ name _ _ | .funDecl name _ _ _ | .classDecl name _ _ | .parameter name _
  | .assignment name _ | .identifier name | .member _ name | .namedType name => [name]
  | _ => []

theorem slots_child (node : Node) : node.slots.map Slot.child = node.children := by
  have plain : ∀ (category : Category) (ids : List NodeId),
      (ids.map (.mk category)).map Slot.child = ids := by
    intro category ids
    simp [Function.comp_def]
  cases node <;> simp [slots, children, plain]

theorem eq_ifStatement_of_branch {node : Node} {slot : Slot} (member : slot ∈ node.slots)
    (isBranch : slot.category = .branch) :
    ∃ condition thenBlock elseBranch, node = .ifStatement condition thenBlock elseBranch := by
  obtain ⟨category, child⟩ := slot
  subst isBranch
  cases node <;> simp [slots] at member ⊢
  case lambda parameters result form body =>
    cases form <;> simp [LambdaForm.category] at member

end Node

namespace Arena

variable {arena : Arena} {id : Nat} {node : Node} {allowed : String → Prop}

def owned (arena : Arena) : List NodeId :=
  arena.nodes.toList.flatMap Node.children

def Admits (arena : Arena) (category : Category) (id : NodeId) : Prop :=
  ∃ node, arena.node? id = some node ∧ category.admits node = true

/--
A store whose nodes form a forest, each in a place that it fits, and that writes
only allowed names.
-/
structure Proper (allowed : String → Prop) (arena : Arena) : Prop where
  located : arena.locations.size = arena.nodes.size
  older :
    ∀ {id : Nat} {node},
      arena.node? id = some node →
      ∀ child : Nat, child ∈ node.children → child < id
  fitting :
    ∀ {id node},
      arena.node? id = some node →
      ∀ slot ∈ node.slots, arena.Admits slot.category slot.child
  ownedOnce : arena.owned.Nodup
  named :
    ∀ {id node},
      arena.node? id = some node →
      ∀ name ∈ node.names, allowed name

theorem lt_size_of_node? (found : arena.node? id = some node) : id < arena.nodes.size :=
  (Array.getElem?_eq_some_iff.mp found).1

theorem Admits.lt_size {category : Category} (admits : arena.Admits category id) :
    id < arena.nodes.size := by
  obtain ⟨node, found, _⟩ := admits
  exact lt_size_of_node? found

@[simp]
theorem add_nodes (arena : Arena) (node : Node) (range : Range) :
    (arena.add node range).nodes = arena.nodes.push node :=
  rfl

@[simp]
theorem owned_add (arena : Arena) (node : Node) (range : Range) :
    (arena.add node range).owned = arena.owned ++ node.children := by
  simp [owned]

theorem node?_add (arena : Arena) (node : Node) (range : Range) (id : NodeId) :
    (arena.add node range).node? id =
      if id = arena.nodes.size then some node else arena.node? id := by
  simp only [node?, add_nodes, Array.getElem?_push]

theorem proper_empty (allowed : String → Prop) : Proper allowed empty where
  located := rfl
  older found := by simp [node?, empty] at found
  fitting found := by simp [node?, empty] at found
  ownedOnce := by simp [owned, empty]
  named found := by simp [node?, empty] at found

theorem Proper.lt_size_of_mem_owned (proper : arena.Proper allowed) (isOwned : id ∈ arena.owned) :
    id < arena.nodes.size := by
  obtain ⟨node, member, isChild⟩ := List.mem_flatMap.mp isOwned
  obtain ⟨index, bound, same⟩ := List.mem_iff_getElem.mp member
  have inside : index < arena.nodes.size := by simpa using bound
  have found : arena.node? index = some node := by
    rw [node?, Array.getElem?_eq_getElem inside]
    simpa using same
  exact Nat.lt_trans (proper.older found id isChild) inside

theorem Proper.add {range : Range} (proper : arena.Proper allowed)
    (fits : ∀ slot ∈ node.slots, arena.Admits slot.category slot.child)
    (distinct : node.children.Nodup) (free : ∀ child ∈ node.children, child ∉ arena.owned)
    (allowedNames : ∀ name ∈ node.names, allowed name) : (arena.add node range).Proper allowed := by
  have keeps : ∀ {category id},
      arena.Admits category id → (arena.add node range).Admits category id := by
    rintro category id ⟨kept, found, admitted⟩
    have bound := lt_size_of_node? found
    refine ⟨kept, ?_, admitted⟩
    rw [node?_add, if_neg (Nat.ne_of_lt bound)]
    exact found
  have cases : ∀ {id found},
      (arena.add node range).node? id = some found →
        id = arena.nodes.size ∧ found = node ∨ arena.node? id = some found := by
    intro id found lookup
    rw [node?_add] at lookup
    split at lookup
    · exact .inl ⟨‹_›, (Option.some.inj lookup).symm⟩
    · exact .inr lookup
  refine {
    located := by simp [Arena.add, proper.located]
    older := ?_
    fitting := ?_
    ownedOnce := ?_
    named := ?_
  }
  · intro id found lookup child isChild
    rcases cases lookup with ⟨rfl, rfl⟩ | old
    · rw [← Node.slots_child] at isChild
      obtain ⟨slot, member, rfl⟩ := List.mem_map.mp isChild
      exact (fits slot member).lt_size
    · exact proper.older old child isChild
  · intro id found lookup slot member
    rcases cases lookup with ⟨rfl, rfl⟩ | old
    · exact keeps (fits slot member)
    · exact keeps (proper.fitting old slot member)
  · rw [owned_add]
    refine List.Nodup.append proper.ownedOnce distinct ?_
    intro child isOwned isChild
    exact free child isChild isOwned
  · intro id found lookup name member
    rcases cases lookup with ⟨rfl, rfl⟩ | old
    · exact allowedNames name member
    · exact proper.named old name member

def ChildOf (arena : Arena) (child parent : NodeId) : Prop :=
  ∃ node, arena.node? parent = some node ∧ child ∈ node.children

/-- One node is another one or stands somewhere below it. -/
def Below (arena : Arena) : NodeId → NodeId → Prop :=
  Relation.ReflTransGen arena.ChildOf

namespace Proper

variable {allowed : String → Prop} {arena : Arena}
variable {parent inner first second : NodeId}

variable (proper : arena.Proper allowed)
include proper

theorem child_lt {child parent : Nat}
    (isChild : arena.ChildOf child parent) : child < parent := by
  obtain ⟨node, found, member⟩ := isChild
  exact proper.older found child member

theorem below_le {inner outer : Nat}
    (below : arena.Below inner outer) : inner ≤ outer := by
  induction below with
  | refl => exact Nat.le_refl _
  | tail _ isChild ih =>
    exact Nat.le_trans ih (Nat.le_of_lt (proper.child_lt isChild))

theorem children_nodup {id : NodeId}
    (found : arena.node? id = some node) : node.children.Nodup := by
  obtain ⟨bound, same⟩ := Array.getElem?_eq_some_iff.mp found
  have member : node ∈ arena.nodes.toList := by
    rw [← same]
    exact Array.getElem_mem_toList bound
  exact (List.nodup_flatMap.mp proper.ownedOnce).1 node member

theorem parent_unique {child : NodeId}
    (ofFirst : arena.ChildOf child first) (ofSecond : arena.ChildOf child second) :
    first = second := by
  obtain ⟨firstNode, firstFound, firstMember⟩ := ofFirst
  obtain ⟨secondNode, secondFound, secondMember⟩ := ofSecond
  obtain ⟨firstBound, firstSame⟩ := Array.getElem?_eq_some_iff.mp firstFound
  obtain ⟨secondBound, secondSame⟩ := Array.getElem?_eq_some_iff.mp secondFound
  have apart := List.pairwise_iff_getElem.mp (List.nodup_flatMap.mp proper.ownedOnce).2
  rcases Nat.lt_trichotomy first second with earlier | same | later
  · have disjoint := apart first second (by simpa using firstBound) (by simpa using secondBound)
      earlier
    simp only [Array.getElem_toList, firstSame, secondSame] at disjoint
    exact (disjoint firstMember secondMember).elim
  · exact same
  · have disjoint := apart second first (by simpa using secondBound) (by simpa using firstBound)
      later
    simp only [Array.getElem_toList, firstSame, secondSame] at disjoint
    exact (disjoint secondMember firstMember).elim

theorem parent_below {outer : NodeId}
    (below : arena.Below inner outer) (different : inner ≠ outer)
    (isChild : arena.ChildOf inner parent) : arena.Below parent outer := by
  rcases Relation.ReflTransGen.cases_head below with same | ⟨next, step, rest⟩
  · exact (different same).elim
  · rw [proper.parent_unique isChild step]
    exact rest

theorem siblings_apart (firstChild : arena.ChildOf first parent)
    (secondChild : arena.ChildOf second parent) (different : first ≠ second)
    (belowFirst : arena.Below inner first) : ¬ arena.Below inner second := by
  intro belowSecond
  have unique : Relator.RightUnique arena.ChildOf := fun _ _ _ => proper.parent_unique
  rcases Relation.ReflTransGen.total_of_right_unique unique belowFirst belowSecond with
    nested | nested
  · have above := proper.below_le (proper.parent_below nested different firstChild)
    exact absurd (proper.child_lt secondChild) (Nat.not_lt.mpr above)
  · have above := proper.below_le (proper.parent_below nested different.symm secondChild)
    exact absurd (proper.child_lt firstChild) (Nat.not_lt.mpr above)

end Proper

end Arena

end Toolshed
