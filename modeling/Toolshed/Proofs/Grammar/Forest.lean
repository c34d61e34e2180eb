import Toolshed.Proofs.Session.Total

namespace Toolshed

/-!
# Parsing builds one tree

A walk down from the last node meets every node below it once.
-/

namespace Arena

/-- A list of nodes that has a node, and then the lists of its children one after another. -/
inductive Preordered (arena : Arena) : NodeId → List NodeId → Prop
  | node {id : NodeId} {parts : List (List NodeId)}
      (below : List.Forall₂ (Preordered arena) (arena.children id) parts) :
      Preordered arena id (id :: parts.flatten)

/-- A node and then the walks over its children, by levels. -/
def preorder (arena : Arena) : (depth : Nat) → NodeId → List NodeId
  | 0, _ => []
  | depth + 1, id => id :: (arena.children id).flatMap (arena.preorder depth)

variable {arena : Arena} {allowed : String → Prop} {depth : Nat}

/-- The walk with a stack visits what the recursion visits. -/
theorem walk_eq (arena : Arena) (stack : List (Nat × NodeId)) :
    arena.walk stack = stack.flatMap fun entry => arena.preorder entry.1 entry.2 := by
  fun_induction walk arena stack with
  | case1 => rfl
  | case2 id stack ih => simp [ih, preorder]
  | case3 levels id stack ih => simp [ih, preorder, List.flatMap_map]

theorem childOf_iff {child parent : NodeId} :
    arena.ChildOf child parent ↔ child ∈ arena.children parent := by
  unfold ChildOf children
  cases arena.node? parent <;> simp

namespace Proper

variable {id : Nat}

theorem preordered_preorder (proper : arena.Proper allowed) (enough : id < depth) :
    arena.Preordered id (arena.preorder depth id) := by
  induction depth generalizing id with
  | zero => omega
  | succ depth ih =>
    refine .node (List.forall₂_map_right_iff.mpr (List.forall₂_same.mpr fun child isChild => ?_))
    have smaller := proper.child_lt (childOf_iff.mpr isChild)
    exact ih (by omega)

theorem mem_preorder_iff (proper : arena.Proper allowed) (enough : id < depth) {inner : NodeId} :
    inner ∈ arena.preorder depth id ↔ arena.Below inner id := by
  induction depth generalizing id with
  | zero => omega
  | succ depth ih =>
    have walks : ∀ child ∈ arena.children id,
        (inner ∈ arena.preorder depth child ↔ arena.Below inner child) := by
      intro child isChild
      have smaller := proper.child_lt (childOf_iff.mpr isChild)
      exact ih (by omega)
    rw [preorder, List.mem_cons, List.mem_flatMap]
    constructor
    · rintro (rfl | ⟨child, isChild, isInner⟩)
      · exact .refl
      · exact ((walks child isChild).mp isInner).tail (childOf_iff.mpr isChild)
    · intro below
      rcases Relation.ReflTransGen.cases_tail below with same | ⟨child, isBelow, step⟩
      · exact .inl same.symm
      · have isChild := childOf_iff.mp step
        exact .inr ⟨child, isChild, (walks child isChild).mpr isBelow⟩

theorem nodup_preorder (proper : arena.Proper allowed) (enough : id < depth) :
    (arena.preorder depth id).Nodup := by
  induction depth generalizing id with
  | zero => omega
  | succ depth ih =>
    have lower : ∀ child : Nat, child ∈ arena.children id → child < depth := by
      intro child isChild
      have smaller := proper.child_lt (childOf_iff.mpr isChild)
      omega
    rw [preorder, List.nodup_cons, List.nodup_flatMap]
    refine ⟨fun isBelow => ?_, fun child isChild => ih (lower child isChild), ?_⟩
    · obtain ⟨child, isChild, isInner⟩ := List.mem_flatMap.mp isBelow
      have above := proper.below_le ((proper.mem_preorder_iff (lower child isChild)).mp isInner)
      exact absurd (proper.child_lt (childOf_iff.mpr isChild)) (Nat.not_lt.mpr above)
    · -- Two children have nothing below both of them.
      have distinct : (arena.children id).Nodup := by
        unfold children
        cases found : arena.node? id with
        | none => exact List.nodup_nil
        | some node => exact proper.children_nodup found
      refine distinct.imp_of_mem fun isFirst isSecond different inner inFirst inSecond => ?_
      exact proper.siblings_apart (childOf_iff.mpr isFirst) (childOf_iff.mpr isSecond) different
        ((proper.mem_preorder_iff (lower _ isFirst)).mp inFirst)
        ((proper.mem_preorder_iff (lower _ isSecond)).mp inSecond)

end Proper

end Arena

namespace SyntaxTree

theorem reachable_eq (tree : SyntaxTree) :
    tree.reachable = tree.arena.preorder tree.arena.nodes.size tree.root := by
  simp [reachable, Arena.walk_eq]

/--
Whatever the tokens are, parsing gives a proper tree: children are older than
their parent, no node stands at two places, every place holds a node of the kind
that it requires, the last node is the file at the top, and every node has a
range. So neither checks nor scripts ever meet a node of the wrong kind.
-/
theorem parse_forest (tokens : List Token) :
    let tree := (parse tokens).tree
    (∀ (id : Nat) node,
      tree.arena.node? id = some node →
      (∀ child : Nat, child ∈ node.children → child < id) ∧
        ∀ slot ∈ node.slots, tree.arena.Admits slot.category slot.child) ∧
      tree.arena.owned.Nodup ∧
      tree.arena.locations.size = tree.arena.nodes.size ∧
      tree.root + 1 = tree.arena.nodes.size ∧
      (∃ imports declarations,
        tree.arena.node? tree.root = some (.sourceFile imports declarations) ∧
          tree.imports.map Import.id = imports) ∧
      tree.arena.Preordered tree.root tree.reachable ∧
      tree.reachable.Nodup ∧
      (∀ id, id ∈ tree.reachable ↔ tree.arena.Below id tree.root) ∧
      tree.sourceFile.Clean (fun _ => True) ∧
      ∀ path context registry interfaces,
        let checked := tree.check path context registry interfaces
        (∀ diagnostic ∈ checked.diagnostics, diagnostic.fault.kind ≠ .internal) ∧
          ∀ linkage level,
            linkage.Builtin →
            registry.Sound →
            checked.success = true →
            ∃ script, tree.lower linkage level path checked.resolutions = .ok script := by
  intro tree
  have names : Token.AllowedNames (fun _ => True) tokens := fun _ _ _ => trivial
  obtain ⟨state, sound, sameArena, _, isLast, _⟩ := parse_spec names.allowed
  have proper : tree.Proper fun _ => True := parse_proper names
  have last : tree.root + 1 = tree.arena.nodes.size := by
    rw [isLast, ParseState.size, ← sameArena]
  have enough : tree.root < tree.arena.nodes.size := Nat.lt_of_lt_of_eq (Nat.lt_succ_self _) last
  obtain ⟨imports, declarations, top⟩ := proper.root
  rw [tree.reachable_eq]
  refine ⟨fun id node found => ⟨proper.arena.older found, proper.arena.fitting found⟩,
    proper.arena.ownedOnce, proper.arena.located, last,
    ⟨imports, declarations, top, proper.imports_map_id top⟩,
    proper.arena.preordered_preorder enough, proper.arena.nodup_preorder enough,
    fun id => proper.arena.mem_preorder_iff enough, proper.sourceFile_clean, ?_⟩
  intro path context registry interfaces
  refine ⟨fun diagnostic member => (proper.check_located diagnostic member).external, ?_⟩
  intro linkage level builtin sound success
  obtain ⟨script, lowered, _⟩ := proper.exists_lower_check builtin level sound success
  exact ⟨script, lowered⟩

end SyntaxTree

/-- A node that is meant to count as a level of nesting. -/
def Node.isLevel : Node → Bool
  | .binary _ _ _ | .unary _ _ | .call _ _ | .member _ _ | .block _ => true
  | _ => false

namespace SyntaxTree

/-- The tokens of `let a = (-…-a).a.a.a` with 198 signs. -/
def steepTokens : List Token :=
  let token (kind : TokenKind) : Token := ⟨kind, "a", none, .point .origin⟩
  let step := [token (.symbol .dot), token .identifier]
  [token (.keyword .letWord), token .identifier, token (.symbol .equal),
      token (.symbol .leftParen)] ++
    List.replicate 198 (token (.symbol .minus)) ++
    [token .identifier, token (.symbol .rightParen)] ++ step ++ step ++ step

/--
The levels in parentheses are given back before those after them are counted, so
an accepted tree can have a path with more of them than the limit.
-/
theorem parse_exceeds_maxNesting :
    let parsed := parse steepTokens
    let path := parsed.tree.reachable
    parsed.success = true ∧ path.head? = some parsed.tree.root ∧
      path.IsChain (fun parent child => child ∈ parsed.tree.arena.children parent) ∧
      maxNesting < path.countP fun id => (parsed.tree.arena.node? id).any Node.isLevel := by
  dsimp only
  rw [reachable_eq]
  decide +kernel

end SyntaxTree

end Toolshed
