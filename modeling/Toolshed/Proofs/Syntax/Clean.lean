import Toolshed.Proofs.Syntax.Proper
import Toolshed.Syntax.Tree

namespace Toolshed

/-!
# Trees without strays

A tree that is read out of a proper store has a part of the right kind at every
place, and no node occurs in it twice.
-/

mutual

def TypeExpression.ids : TypeExpression → List NodeId
  | .named id _ => [id]
  | .function id parameters result => id :: (TypeExpression.idsOfAll parameters ++ result.ids)
  | .stray id => [id]

def TypeExpression.idsOfAll : List TypeExpression → List NodeId
  | [] => []
  | first :: rest => first.ids ++ TypeExpression.idsOfAll rest

def TypeExpression.Clean (allowed : String → Prop) : TypeExpression → Prop
  | .named _ name => allowed name
  | .function _ parameters result =>
    TypeExpression.CleanAll allowed parameters ∧ result.Clean allowed
  | .stray _ => False

def TypeExpression.CleanAll (allowed : String → Prop) : List TypeExpression → Prop
  | [] => True
  | first :: rest => first.Clean allowed ∧ TypeExpression.CleanAll allowed rest

end

def Parameter.ids : Parameter → List NodeId
  | .named id _ type => id :: type.ids
  | .stray id => [id]

def Parameter.Clean (allowed : String → Prop) : Parameter → Prop
  | .named _ name type => allowed name ∧ type.Clean allowed
  | .stray _ => False

def Declaration.isLocal : Declaration → Bool
  | .value _ _ _ _ _ | .function _ _ _ _ _ => true
  | _ => false

def signatureIds (parameters : List Parameter) (result : Option TypeExpression) : List NodeId :=
  parameters.flatMap Parameter.ids ++ result.toList.flatMap TypeExpression.ids

/-- Parameters and a result type without strays. -/
structure CleanSignature
    (allowed : String → Prop)
    (parameters : List Parameter)
    (result : Option TypeExpression) : Prop where
  parameters : ∀ parameter ∈ parameters, parameter.Clean allowed
  result : ∀ type ∈ result, type.Clean allowed

mutual

def Expression.ids : Expression → List NodeId
  | .number id _ | .string id _ | .boolean id _ | .unit id | .identifier id _ | .stray id => [id]
  | .binary id _ left right => id :: (left.ids ++ right.ids)
  | .unary id _ operand => id :: operand.ids
  | .call id callee arguments => id :: (callee.ids ++ Expression.idsOfAll arguments)
  | .member id object _ => id :: object.ids
  | .lambda id parameters result body => id :: (signatureIds parameters result ++ body.ids)

def Expression.idsOfAll : List Expression → List NodeId
  | [] => []
  | first :: rest => first.ids ++ Expression.idsOfAll rest

def LambdaBody.ids : LambdaBody → List NodeId
  | .expression body => body.ids
  | .block body => body.ids

def Block.ids : Block → List NodeId
  | .statements id statements => id :: Statement.idsOfAll statements
  | .stray id => [id]

def Statement.idsOfAll : List Statement → List NodeId
  | [] => []
  | first :: rest => first.ids ++ Statement.idsOfAll rest

def Statement.ids : Statement → List NodeId
  | .declaration declared => declared.ids
  | .expression id expression => id :: expression.ids
  | .returnNothing id | .stray id => [id]
  | .returnValue id value => id :: value.ids
  | .conditional id condition thenBlock otherwise =>
    id :: (condition.ids ++ thenBlock.ids ++ otherwise.ids)
  | .loop id condition body => id :: (condition.ids ++ body.ids)
  | .assignment id _ value => id :: value.ids

/-- The nodes of the second branch of an `if`. -/
def ElseBranch.ids : ElseBranch → List NodeId
  | .nothing => []
  | .block block => block.ids
  | .statement statement => statement.ids

def Declaration.ids : Declaration → List NodeId
  | .value id _ _ type initial => id :: (type.toList.flatMap TypeExpression.ids ++ initial.ids)
  | .function id _ parameters result body => id :: (signatureIds parameters result ++ body.ids)
  | .classType id _ parameters members =>
    id :: (parameters.flatMap Parameter.ids ++ Declaration.idsOfAll members)
  | .stray id => [id]

def Declaration.idsOfAll : List Declaration → List NodeId
  | [] => []
  | first :: rest => first.ids ++ Declaration.idsOfAll rest

end

section

variable (allowed : String → Prop)

mutual

def Expression.Clean : Expression → Prop
  | .number _ _ | .string _ _ | .boolean _ _ | .unit _ => True
  | .identifier _ name => allowed name
  | .binary _ _ left right => left.Clean ∧ right.Clean
  | .unary _ _ operand => operand.Clean
  | .call _ callee arguments => callee.Clean ∧ Expression.CleanAll arguments
  | .member _ object name => object.Clean ∧ allowed name
  | .lambda _ parameters result body =>
    CleanSignature allowed parameters result ∧ body.Clean
  | .stray _ => False

def Expression.CleanAll : List Expression → Prop
  | [] => True
  | first :: rest => first.Clean ∧ Expression.CleanAll rest

def LambdaBody.Clean : LambdaBody → Prop
  | .expression body => body.Clean
  | .block body => body.Clean

def Block.Clean : Block → Prop
  | .statements _ statements => Statement.CleanAll statements
  | .stray _ => False

def Statement.CleanAll : List Statement → Prop
  | [] => True
  | first :: rest => first.Clean ∧ Statement.CleanAll rest

def Statement.Clean : Statement → Prop
  | .declaration declared => declared.isLocal = true ∧ declared.Clean
  | .expression _ expression => expression.Clean
  | .returnNothing _ => True
  | .returnValue _ value => value.Clean
  | .conditional _ condition thenBlock otherwise =>
    condition.Clean ∧ thenBlock.Clean ∧ otherwise.Clean
  | .loop _ condition body => condition.Clean ∧ body.Clean
  | .assignment _ target value => allowed target ∧ value.Clean
  | .stray _ => False

def ElseBranch.Clean : ElseBranch → Prop
  | .nothing => True
  | .block block => block.Clean
  | .statement statement => statement.isConditional = true ∧ statement.Clean

def Declaration.Clean : Declaration → Prop
  | .value _ _ name type initial =>
    allowed name ∧ (∀ written ∈ type, written.Clean allowed) ∧ initial.Clean
  | .function _ name parameters result body =>
    allowed name ∧ CleanSignature allowed parameters result ∧ body.Clean
  | .classType _ name parameters members =>
    allowed name ∧ (∀ parameter ∈ parameters, parameter.Clean allowed) ∧
      Declaration.CleanMembers members
  | .stray _ => False

def Declaration.CleanMembers : List Declaration → Prop
  | [] => True
  | first :: rest =>
    (first.isLocal = true ∧ first.Clean) ∧ Declaration.CleanMembers rest

end

end

namespace Declaration

def valueIds : Declaration → List NodeId
  | .value _ _ _ type initial => type.toList.flatMap TypeExpression.ids ++ initial.ids
  | _ => []

def bodyIds : Declaration → List NodeId
  | .function id _ parameters result body => id :: (signatureIds parameters result ++ body.ids)
  | _ => []

def topValueIds : Declaration → List NodeId
  | .classType _ _ _ members => members.flatMap valueIds
  | declaration => declaration.valueIds

def topBodyIds : Declaration → List NodeId
  | .classType _ _ _ members => members.flatMap bodyIds
  | declaration => declaration.bodyIds

end Declaration

theorem TypeExpression.idsOfAll_eq (types : List TypeExpression) :
    TypeExpression.idsOfAll types = types.flatMap TypeExpression.ids :=
  eq_flatMap_of_cons rfl (fun _ _ => rfl) types

theorem Expression.idsOfAll_eq (expressions : List Expression) :
    Expression.idsOfAll expressions = expressions.flatMap Expression.ids :=
  eq_flatMap_of_cons rfl (fun _ _ => rfl) expressions

theorem Statement.idsOfAll_eq (statements : List Statement) :
    Statement.idsOfAll statements = statements.flatMap Statement.ids :=
  eq_flatMap_of_cons rfl (fun _ _ => rfl) statements

theorem Declaration.idsOfAll_eq (declarations : List Declaration) :
    Declaration.idsOfAll declarations = declarations.flatMap Declaration.ids :=
  eq_flatMap_of_cons rfl (fun _ _ => rfl) declarations

variable {allowed : String → Prop}

theorem TypeExpression.cleanAll_iff {types : List TypeExpression} :
    TypeExpression.CleanAll allowed types ↔ ∀ type ∈ types, type.Clean allowed :=
  iff_forall_of_cons trivial (fun _ _ => Iff.rfl) types

theorem Expression.cleanAll_iff {expressions : List Expression} :
    Expression.CleanAll allowed expressions ↔
      ∀ expression ∈ expressions, expression.Clean allowed :=
  iff_forall_of_cons trivial (fun _ _ => Iff.rfl) expressions

theorem Statement.cleanAll_iff {statements : List Statement} :
    Statement.CleanAll allowed statements ↔
      ∀ statement ∈ statements, statement.Clean allowed :=
  iff_forall_of_cons trivial (fun _ _ => Iff.rfl) statements

theorem Declaration.cleanMembers_iff {members : List Declaration} :
    Declaration.CleanMembers allowed members ↔
      ∀ member ∈ members, member.isLocal = true ∧ member.Clean allowed :=
  iff_forall_of_cons trivial (fun _ _ => Iff.rfl) members

namespace Declaration

variable {declarations : List Declaration}

attribute [local simp] valueIds

theorem valueIds_sublist (declaration : Declaration) :
    declaration.valueIds.Sublist declaration.ids := by
  cases declaration <;> simp [ids]

theorem bodyIds_sublist (declaration : Declaration) :
    declaration.bodyIds.Sublist declaration.ids := by
  cases declaration <;> simp [bodyIds, ids]

theorem flatMap_sublist {chosen : Declaration → List NodeId}
    (inside : ∀ declaration, (chosen declaration).Sublist declaration.ids) :
    (declarations.flatMap chosen).Sublist (idsOfAll declarations) := by
  induction declarations with
  | nil => exact .slnil
  | cons first rest ih => exact (inside first).append ih

theorem apart_flatMap {values bodies : Declaration → List NodeId}
    (valuesInside : ∀ declaration, (values declaration).Sublist declaration.ids)
    (bodiesInside : ∀ declaration, (bodies declaration).Sublist declaration.ids)
    (apart :
      ∀ declaration ∈ declarations,
        declaration.ids.Nodup →
        ∀ id ∈ values declaration, id ∉ bodies declaration)
    (nodup : (idsOfAll declarations).Nodup) :
    ∀ id ∈ declarations.flatMap values, id ∉ declarations.flatMap bodies := by
  induction declarations with
  | nil => simp
  | cons first rest ih =>
    rw [List.forall_mem_cons] at apart
    simp only [idsOfAll, List.nodup_append] at nodup
    have later := ih apart.2 nodup.2.1
    intro id isValue isBody
    rw [List.flatMap_cons, List.mem_append] at isValue isBody
    rcases isValue with isValue | isValue <;> rcases isBody with isBody | isBody
    · exact apart.1 nodup.1 id isValue isBody
    · exact nodup.2.2 id ((valuesInside first).subset isValue) id
        ((flatMap_sublist bodiesInside).subset isBody) rfl
    · exact nodup.2.2 id ((bodiesInside first).subset isBody) id
        ((flatMap_sublist valuesInside).subset isValue) rfl
    · exact later id isValue isBody

theorem topValueIds_sublist (declaration : Declaration) :
    declaration.topValueIds.Sublist declaration.ids := by
  cases declaration with
  | classType id name parameters members =>
    exact .cons _ ((flatMap_sublist valueIds_sublist).trans (List.sublist_append_right _ _))
  | value id mutable name type initial => simp [topValueIds, ids]
  | function id name parameters result body => simp [topValueIds]
  | stray id => simp [topValueIds]

theorem topBodyIds_sublist (declaration : Declaration) :
    declaration.topBodyIds.Sublist declaration.ids := by
  cases declaration with
  | classType id name parameters members =>
    exact .cons _ ((flatMap_sublist bodyIds_sublist).trans (List.sublist_append_right _ _))
  | value id mutable name type initial => simp [topBodyIds, bodyIds]
  | function id name parameters result body => simp [topBodyIds, bodyIds, ids]
  | stray id => simp [topBodyIds, bodyIds]

theorem values_apart_bodies (nodup : (idsOfAll declarations).Nodup) :
    ∀ id ∈ declarations.flatMap topValueIds, id ∉ declarations.flatMap topBodyIds := by
  refine apart_flatMap topValueIds_sublist topBodyIds_sublist ?_ nodup
  intro declaration _ nodup
  cases declaration with
  | classType id name parameters members =>
    refine apart_flatMap valueIds_sublist bodyIds_sublist ?_ ?_
    · intro member _ _
      cases member <;> simp [bodyIds]
    · simp only [ids] at nodup
      grind
  | value id mutable name type initial => simp [topBodyIds, bodyIds]
  | function id name parameters result body => simp [topValueIds]
  | stray id => simp [topValueIds]

end Declaration

namespace Arena

variable {arena : Arena}
variable {id : NodeId} {node : Node} {fuel deeper : Nat}

attribute [local simp] Node.slots Node.names Category.admits

structure Sprouts (arena : Arena) (id : NodeId) (clean : Prop) (ids : List NodeId) : Prop where
  clean : clean
  nodup : ids.Nodup
  below : ∀ inner ∈ ids, arena.Below inner id

theorem Proper.sprouts (proper : arena.Proper allowed) (found : arena.node? id = some node)
    {clean : Prop} (isClean : clean) (idsOf : Slot → List NodeId)
    (nodup : ∀ slot ∈ node.slots, (idsOf slot).Nodup)
    (below : ∀ slot ∈ node.slots, ∀ inner ∈ idsOf slot, arena.Below inner slot.child) :
    arena.Sprouts id clean (id :: node.slots.flatMap idsOf) := by
  have isChild : ∀ slot ∈ node.slots, arena.ChildOf slot.child id := by
    intro slot member
    exact ⟨node, found, node.slots_child ▸ List.mem_map_of_mem member⟩
  have strictlyBelow : ∀ inner ∈ node.slots.flatMap idsOf, inner < id := by
    intro inner member
    obtain ⟨slot, slotMember, innerMember⟩ := List.mem_flatMap.mp member
    exact Nat.lt_of_le_of_lt (proper.below_le (below slot slotMember inner innerMember))
      (proper.child_lt (isChild slot slotMember))
  refine ⟨isClean, ?_, ?_⟩
  · refine List.nodup_cons.mpr ⟨fun member => Nat.lt_irrefl _ (strictlyBelow id member), ?_⟩
    refine List.nodup_flatMap.mpr ⟨nodup, ?_⟩
    have distinct : (node.slots.map Slot.child).Nodup :=
      node.slots_child ▸ proper.children_nodup found
    refine (List.Pairwise.and_mem.mp (List.pairwise_map.mp distinct)).imp ?_
    rintro first second ⟨firstMember, secondMember, different⟩ inner inFirst inSecond
    exact proper.siblings_apart (isChild first firstMember) (isChild second secondMember)
      different (below first firstMember inner inFirst) (below second secondMember inner inSecond)
  · intro inner member
    rcases List.mem_cons.mp member with rfl | deeper
    · exact Relation.ReflTransGen.refl
    · obtain ⟨slot, slotMember, innerMember⟩ := List.mem_flatMap.mp deeper
      exact (below slot slotMember inner innerMember).tail (isChild slot slotMember)

def idsAt (arena : Arena) (fuel : Nat) (slot : Slot) : List NodeId :=
  match slot.category with
  | .importEntry => [slot.child]
  | .declaration | .member => (arena.declarationAt fuel slot.child).ids
  | .parameter => (arena.parameterAt fuel slot.child).ids
  | .type => (arena.typeAt fuel slot.child).ids
  | .block => (arena.blockAt fuel slot.child).ids
  | .statement => (arena.statementAt fuel slot.child).ids
  | .branch => (arena.elseBranchAt fuel slot.child).ids
  | .expression => (arena.expressionAt fuel slot.child).ids

def CleanAt (allowed : String → Prop) (arena : Arena) (fuel : Nat) (slot : Slot) : Prop :=
  match slot.category with
  | .importEntry => True
  | .declaration => (arena.declarationAt fuel slot.child).Clean allowed
  | .member =>
    (arena.declarationAt fuel slot.child).isLocal = true ∧
      (arena.declarationAt fuel slot.child).Clean allowed
  | .parameter => (arena.parameterAt fuel slot.child).Clean allowed
  | .type => (arena.typeAt fuel slot.child).Clean allowed
  | .block => (arena.blockAt fuel slot.child).Clean allowed
  | .statement => (arena.statementAt fuel slot.child).Clean allowed
  | .branch => (arena.elseBranchAt fuel slot.child).Clean allowed
  | .expression => (arena.expressionAt fuel slot.child).Clean allowed

def delay : Category → Nat
  | .statement => 1
  | .branch => 2
  | _ => 0

def Enough (fuel : Nat) (category : Category) (child : Nat) : Prop :=
  2 * child + delay category < fuel

abbrev ReadsAt (allowed : String → Prop) (arena : Arena) (fuel : Nat) (slot : Slot) : Prop :=
  arena.Sprouts slot.child (CleanAt allowed arena fuel slot) (arena.idsAt fuel slot)

theorem Proper.readsAt_of (proper : arena.Proper allowed) {slot : Slot}
    (found : arena.node? slot.child = some node)
    (descend : ∀ inner ∈ node.slots, ReadsAt allowed arena fuel inner)
    (ids : arena.idsAt deeper slot = slot.child :: node.slots.flatMap (arena.idsAt fuel))
    (clean : CleanAt allowed arena deeper slot) : ReadsAt allowed arena deeper slot := by
  have tree := proper.sprouts found clean (arena.idsAt fuel)
    (fun inner member => (descend inner member).nodup)
    (fun inner member => (descend inner member).below)
  rw [ReadsAt, ids]
  exact tree

theorem Sprouts.again {first second : Category} (reads : ReadsAt allowed arena fuel ⟨first, id⟩)
    (ids : arena.idsAt deeper ⟨second, id⟩ = arena.idsAt fuel ⟨first, id⟩)
    (clean : CleanAt allowed arena deeper ⟨second, id⟩) :
    ReadsAt allowed arena deeper ⟨second, id⟩ := by
  refine ⟨clean, ?_, ?_⟩
  · rw [ids]
    exact reads.nodup
  · rw [ids]
    exact reads.below

theorem Proper.readsType (proper : arena.Proper allowed) {id : Nat} (enough : id < fuel)
    (admits : arena.Admits .type id) : ReadsAt allowed arena fuel ⟨.type, id⟩ := by
  induction fuel generalizing id with
  | zero => omega
  | succ fuel ih =>
    obtain ⟨node, found, admitted⟩ := admits
    have onlyTypes : ∀ inner ∈ node.slots, inner.category = .type := by
      cases node <;> simp at admitted
      · simp
      · simp only [Node.slots, List.mem_append, List.mem_map, List.mem_singleton]
        rintro inner (⟨_, _, rfl⟩ | rfl) <;> rfl
    have reads : ∀ inner ∈ node.slots, ReadsAt allowed arena fuel inner := by
      rintro ⟨category, child⟩ member
      obtain rfl : category = .type := onlyTypes _ member
      have smaller := proper.older found child
        (node.slots_child ▸ List.mem_map_of_mem member)
      exact ih (by omega) (proper.fitting found _ member)
    cases node <;> simp at admitted
    case namedType name =>
      refine proper.readsAt_of found reads ?_ ?_
      · simp [idsAt, typeAt, found, TypeExpression.ids]
      · simpa [CleanAt, typeAt, found, TypeExpression.Clean] using
          proper.named found name (by simp)
    case functionType parameters result =>
      refine proper.readsAt_of found reads ?_ ?_
      · simp [idsAt, typeAt, found, TypeExpression.ids, TypeExpression.idsOfAll_eq,
          List.flatMap_map]
      · have clean := fun inner member => (reads inner member).clean
        simp only [Node.slots, List.mem_append, List.mem_map, List.mem_singleton] at clean
        simp only [CleanAt, typeAt, found, TypeExpression.Clean, TypeExpression.cleanAll_iff,
          List.mem_map]
        refine ⟨?_, clean _ (.inr rfl)⟩
        rintro type ⟨child, member, rfl⟩
        exact clean _ (.inl ⟨child, member, rfl⟩)

theorem Proper.readsParameter (proper : arena.Proper allowed) {id : Nat} (enough : id < fuel)
    (admits : arena.Admits .parameter id) : ReadsAt allowed arena fuel ⟨.parameter, id⟩ := by
  obtain ⟨node, found, admitted⟩ := admits
  cases node <;> simp at admitted
  case parameter name type =>
    have smaller := proper.older found type (by simp [Node.children])
    have typeReads := proper.readsType (Nat.lt_trans smaller enough)
      (proper.fitting found ⟨.type, type⟩ (by simp))
    refine proper.readsAt_of found (by simpa using typeReads) ?_ ?_
    · simp [idsAt, parameterAt, found, Parameter.ids]
    · have allowedName := proper.named found name (by simp)
      simpa [CleanAt, parameterAt, found, Parameter.Clean, allowedName] using typeReads.clean

theorem CleanAt.signature {parameters : List NodeId} {result : Option NodeId}
    (cleanParameters : ∀ child ∈ parameters, CleanAt allowed arena fuel ⟨.parameter, child⟩)
    (cleanResult : ∀ child ∈ result, CleanAt allowed arena fuel ⟨.type, child⟩) :
    CleanSignature allowed (parameters.map (arena.parameterAt fuel))
      (result.map (arena.typeAt fuel)) := by
  constructor
  · intro parameter member
    obtain ⟨child, childMember, rfl⟩ := List.mem_map.mp member
    exact cleanParameters child childMember
  · intro type member
    obtain ⟨child, childMember, rfl⟩ := Option.map_eq_some_iff.mp member
    exact cleanResult child childMember

theorem signatureIds_read (arena : Arena) (fuel : Nat) (parameters : List NodeId)
    (result : Option NodeId) :
    signatureIds (parameters.map (arena.parameterAt fuel)) (result.map (arena.typeAt fuel)) =
      (parameters.map (Slot.mk .parameter) ++ result.toList.map (Slot.mk .type)).flatMap
        (arena.idsAt fuel) := by
  cases result <;> simp [signatureIds, idsAt, List.flatMap_map]

def ReadsAll (allowed : String → Prop) (arena : Arena) (fuel : Nat) : Prop :=
  ∀ slot : Slot,
    Enough fuel slot.category slot.child →
    arena.Admits slot.category slot.child →
    ReadsAt allowed arena fuel slot

namespace ReadsAll

variable {fuel id : Nat} {node : Node}

theorem descend (all : ReadsAll allowed arena fuel) (proper : arena.Proper allowed)
    (found : arena.node? id = some node) (enough : 2 * id < fuel + 1)
    (noBranch : ∀ inner ∈ node.slots, inner.category ≠ .branch) :
    ∀ inner ∈ node.slots, ReadsAt allowed arena fuel inner := by
  rintro ⟨category, child⟩ member
  have smaller := proper.older found child (node.slots_child ▸ List.mem_map_of_mem member)
  have short : delay category ≤ 1 := by
    have notBranch := noBranch _ member
    cases category <;> simp [delay] at notBranch ⊢
  refine all _ ?_ (proper.fitting found _ member)
  simp only [Enough]
  omega

attribute [local simp] idsAt List.flatMap_map

theorem expression (all : ReadsAll allowed arena fuel) (proper : arena.Proper allowed)
    (enough : 2 * id < fuel + 1) (admits : arena.Admits .expression id) :
    ReadsAt allowed arena (fuel + 1) ⟨.expression, id⟩ := by
  obtain ⟨node, found, admitted⟩ := admits
  have noBranch : ∀ inner ∈ node.slots, inner.category ≠ .branch := by
    intro inner member isBranch
    obtain ⟨condition, thenBlock, elseBranch, rfl⟩ := Node.eq_ifStatement_of_branch member isBranch
    simp [Node.isExpression] at admitted
  have reads := all.descend proper found enough noBranch
  have clean := fun inner member => (reads inner member).clean
  refine proper.readsAt_of found reads ?_ ?_
  · cases node <;> simp [Node.isExpression] at admitted <;>
      simp [expressionAt, found, Expression.ids, Expression.idsOfAll_eq]
    case lambda parameters result form body =>
      rw [signatureIds_read]
      cases form <;> simp [LambdaBody.ids, LambdaForm.category]
  · cases node <;> simp [Node.isExpression] at admitted <;>
      simp only [CleanAt, expressionAt, found, Expression.Clean]
    case identifier name => exact proper.named found name (by simp)
    case binary operator left right =>
      exact ⟨clean ⟨.expression, left⟩ (by simp),
        clean ⟨.expression, right⟩ (by simp)⟩
    case unary operator operand =>
      exact clean ⟨.expression, operand⟩ (by simp)
    case call callee arguments =>
      refine ⟨clean ⟨.expression, callee⟩ (by simp), ?_⟩
      rw [Expression.cleanAll_iff]
      intro argument member
      obtain ⟨child, childMember, rfl⟩ := List.mem_map.mp member
      exact clean ⟨.expression, child⟩ (by simp [childMember])
    case member object name =>
      exact ⟨clean ⟨.expression, object⟩ (by simp),
        proper.named found name (by simp)⟩
    case lambda parameters result form body =>
      refine ⟨CleanAt.signature ?_ ?_, ?_⟩
      · intro child member
        exact clean ⟨.parameter, child⟩ (by simp [member])
      · intro child member
        exact clean ⟨.type, child⟩ (by simp [Option.mem_def.mp member])
      · have cleanBody := clean ⟨form.category, body⟩ (by simp)
        cases form <;> exact cleanBody

theorem block (all : ReadsAll allowed arena fuel) (proper : arena.Proper allowed)
    (enough : 2 * id < fuel + 1) (admits : arena.Admits .block id) :
    ReadsAt allowed arena (fuel + 1) ⟨.block, id⟩ := by
  obtain ⟨node, found, admitted⟩ := admits
  cases node <;> simp at admitted
  case block statements =>
    have reads := all.descend proper found enough (by simp)
    refine proper.readsAt_of found reads ?_ ?_
    · simp [blockAt, found, Block.ids, Statement.idsOfAll_eq]
    · simp only [CleanAt, blockAt, found, Block.Clean, Statement.cleanAll_iff]
      intro statement member
      obtain ⟨child, childMember, rfl⟩ := List.mem_map.mp member
      exact (reads ⟨.statement, child⟩ (by simp [childMember])).clean

theorem declaration (all : ReadsAll allowed arena fuel) (proper : arena.Proper allowed)
    (enough : 2 * id < fuel + 1) (admits : arena.Admits .declaration id) :
    ReadsAt allowed arena (fuel + 1) ⟨.declaration, id⟩ := by
  obtain ⟨node, found, admitted⟩ := admits
  have noBranch : ∀ inner ∈ node.slots, inner.category ≠ .branch := by
    intro inner member isBranch
    obtain ⟨condition, thenBlock, elseBranch, rfl⟩ := Node.eq_ifStatement_of_branch member isBranch
    simp at admitted
  have reads := all.descend proper found enough noBranch
  have clean := fun inner member => (reads inner member).clean
  cases node <;> simp at admitted
  case letDecl mutable name type value =>
    refine proper.readsAt_of found reads ?_ ?_
    · cases type <;>
        simp [declarationAt, found, Declaration.ids]
    · simp only [CleanAt, declarationAt, found]
      refine ⟨proper.named found name (by simp), ?_,
        clean ⟨.expression, value⟩ (by simp)⟩
      intro written member
      obtain ⟨child, childMember, rfl⟩ := Option.map_eq_some_iff.mp member
      exact clean ⟨.type, child⟩ (by simp [childMember])
  case funDecl name parameters result body =>
    refine proper.readsAt_of found reads ?_ ?_
    · simp only [idsAt, declarationAt, found, Declaration.ids, signatureIds_read]
      simp
    · simp only [CleanAt, declarationAt, found]
      refine ⟨proper.named found name (by simp), CleanAt.signature ?_ ?_,
        clean ⟨.block, body⟩ (by simp)⟩
      · intro child member
        exact clean ⟨.parameter, child⟩ (by simp [member])
      · intro child member
        exact clean ⟨.type, child⟩ (by simp [Option.mem_def.mp member])
  case classDecl name parameters members =>
    refine proper.readsAt_of found reads ?_ ?_
    · simp [declarationAt, found, Declaration.ids, Declaration.idsOfAll_eq]
    · simp only [CleanAt, declarationAt, found, Declaration.Clean, Declaration.cleanMembers_iff]
      refine ⟨proper.named found name (by simp), ?_, ?_⟩
      · intro parameter member
        obtain ⟨child, childMember, rfl⟩ := List.mem_map.mp member
        exact clean ⟨.parameter, child⟩ (by simp [childMember])
      · intro declared member
        obtain ⟨child, childMember, rfl⟩ := List.mem_map.mp member
        exact clean ⟨.member, child⟩ (by simp [childMember])

theorem member (all : ReadsAll allowed arena fuel) (proper : arena.Proper allowed)
    (enough : 2 * id < fuel + 1) (admits : arena.Admits .member id) :
    ReadsAt allowed arena (fuel + 1) ⟨.member, id⟩ := by
  obtain ⟨node, found, admitted⟩ := admits
  have wider : arena.Admits .declaration id := by
    refine ⟨node, found, ?_⟩
    cases node <;> simp at admitted ⊢
  have reads := all.declaration proper enough wider
  have isLocal : (arena.declarationAt (fuel + 1) id).isLocal = true := by
    cases node <;> simp at admitted <;>
      simp [declarationAt, found, Declaration.isLocal]
  exact reads.again rfl ⟨isLocal, reads.clean⟩

attribute [local simp] Statement.ids

theorem statement (all : ReadsAll allowed arena fuel) (proper : arena.Proper allowed)
    (enough : 2 * id < fuel) (admits : arena.Admits .statement id) :
    ReadsAt allowed arena (fuel + 1) ⟨.statement, id⟩ := by
  obtain ⟨node, found, admitted⟩ := admits
  have reads : ∀ inner ∈ node.slots, ReadsAt allowed arena fuel inner := by
    rintro ⟨category, child⟩ inside
    have smaller := proper.older found child (node.slots_child ▸ List.mem_map_of_mem inside)
    refine all _ ?_ (proper.fitting found _ inside)
    cases category <;> simp only [Enough, delay] <;> omega
  have clean := fun inner inside => (reads inner inside).clean
  -- A declaration is met once as a statement and once as a declaration.
  have declared : arena.Admits .member id →
      arena.statementAt (fuel + 1) id = .declaration (arena.declarationAt fuel id) →
      ReadsAt allowed arena (fuel + 1) ⟨.statement, id⟩ := by
    intro admits shape
    have asMember := all ⟨.member, id⟩ (by simp only [Enough, delay]; omega) admits
    refine asMember.again ?_ ?_
    · simp [shape]
    · simpa [CleanAt, shape, Statement.Clean] using asMember.clean
  cases node <;> simp at admitted
  case letDecl mutable name type value =>
    exact declared ⟨_, found, rfl⟩ (by simp [statementAt, found])
  case funDecl name parameters result body =>
    exact declared ⟨_, found, rfl⟩ (by simp [statementAt, found])
  case expressionStatement expression =>
    refine proper.readsAt_of found reads ?_ ?_
    · simp [statementAt, found]
    · simp only [CleanAt, statementAt, found]
      exact clean ⟨.expression, expression⟩ (by simp)
  case returnStatement value =>
    refine proper.readsAt_of found reads ?_ ?_
    · cases value <;> simp [statementAt, found]
    · cases value <;> simp only [CleanAt, statementAt, found, Statement.Clean]
      case some value => exact clean ⟨.expression, value⟩ (by simp)
  case ifStatement condition thenBlock elseBranch =>
    refine proper.readsAt_of found reads ?_ ?_
    · cases elseBranch <;>
        simp [statementAt, found, ElseBranch.ids]
    · simp only [CleanAt, statementAt, found]
      refine ⟨clean ⟨.expression, condition⟩ (by simp),
        clean ⟨.block, thenBlock⟩ (by simp), ?_⟩
      cases elseBranch with
      | none => simp [ElseBranch.Clean]
      | some branch => exact clean ⟨.branch, branch⟩ (by simp)
  case whileStatement condition body =>
    refine proper.readsAt_of found reads ?_ ?_
    · simp [statementAt, found]
    · simp only [CleanAt, statementAt, found]
      exact ⟨clean ⟨.expression, condition⟩ (by simp),
        clean ⟨.block, body⟩ (by simp)⟩
  case assignment target value =>
    refine proper.readsAt_of found reads ?_ ?_
    · simp [statementAt, found]
    · simp only [CleanAt, statementAt, found]
      exact ⟨proper.named found target (by simp),
        clean ⟨.expression, value⟩ (by simp)⟩

theorem branch (all : ReadsAll allowed arena fuel) (enough : 2 * id + 1 < fuel)
    (admits : arena.Admits .branch id) : ReadsAt allowed arena (fuel + 1) ⟨.branch, id⟩ := by
  obtain ⟨node, found, admitted⟩ := admits
  cases node <;> simp at admitted
  case block statements =>
    have asBlock := all ⟨.block, id⟩ (by simp only [Enough, delay]; omega) ⟨_, found, rfl⟩
    refine asBlock.again ?_ ?_
    · simp [elseBranchAt, found, ElseBranch.ids]
    · simpa [CleanAt, elseBranchAt, found, ElseBranch.Clean] using asBlock.clean
  case ifStatement condition thenBlock elseBranch =>
    have asStatement :=
      all ⟨.statement, id⟩ (by simp only [Enough, delay]; omega) ⟨_, found, rfl⟩
    have isConditional : (arena.statementAt fuel id).isConditional = true := by
      obtain ⟨deeper, rfl⟩ : ∃ deeper, fuel = deeper + 1 := ⟨fuel - 1, by omega⟩
      simp [statementAt, found, Statement.isConditional]
    refine asStatement.again ?_ ?_
    · simp [elseBranchAt, found, ElseBranch.ids]
    · simpa [CleanAt, elseBranchAt, found, ElseBranch.Clean, isConditional] using
        asStatement.clean

end ReadsAll

theorem Proper.readsAll (proper : arena.Proper allowed) (fuel : Nat) :
    ReadsAll allowed arena fuel := by
  induction fuel with
  | zero =>
    intro slot enough
    simp [Enough] at enough
  | succ fuel all =>
    rintro ⟨category, id⟩ enough admits
    simp only [Enough] at enough
    cases category <;> simp only [delay] at enough
    case importEntry =>
      refine ⟨trivial, ?_, ?_⟩
      · simp [idsAt]
      · intro inner member
        obtain rfl : inner = id := by simpa [idsAt] using member
        exact Relation.ReflTransGen.refl
    case declaration => exact all.declaration proper (by omega) admits
    case member => exact all.member proper (by omega) admits
    case parameter => exact proper.readsParameter (by omega) admits
    case type => exact proper.readsType (by omega) admits
    case block => exact all.block proper (by omega) admits
    case statement => exact all.statement proper (by omega) admits
    case branch => exact all.branch (by omega) admits
    case expression => exact all.expression proper (by omega) admits

end Arena

def SourceFile.ids (file : SourceFile) : List NodeId :=
  file.imports.map Import.id ++ Declaration.idsOfAll file.declarations

/-- A file without strays, in which no node occurs twice. -/
structure SourceFile.Clean (allowed : String → Prop) (file : SourceFile) : Prop where
  imports : ∀ entry ∈ file.imports, allowed entry.bindingName
  declarations : ∀ declaration ∈ file.declarations, declaration.Clean allowed
  nodup : file.ids.Nodup

structure SyntaxTree.Proper (allowed : String → Prop) (tree : SyntaxTree) : Prop where
  arena : tree.arena.Proper allowed
  root : ∃ imports declarations,
    tree.arena.node? tree.root = some (.sourceFile imports declarations)

namespace SyntaxTree.Proper

variable {tree : SyntaxTree}

variable (proper : tree.Proper allowed)
include proper

theorem readsTop {node : Node}
    (found : tree.arena.node? tree.root = some node) {slot : Slot} (member : slot ∈ node.slots)
    (short : Arena.delay slot.category = 0) : Arena.ReadsAt allowed tree.arena tree.depth slot := by
  have inside := Arena.lt_size_of_node? found
  have smaller := proper.arena.older found slot.child
    (node.slots_child ▸ List.mem_map_of_mem member)
  refine proper.arena.readsAll tree.depth slot ?_ (proper.arena.fitting found slot member)
  simp only [Arena.Enough, SyntaxTree.depth]
  omega

theorem imports_map_id {imports declarations : List NodeId}
    (found : tree.arena.node? tree.root = some (.sourceFile imports declarations)) :
    tree.imports.map Import.id = imports := by
  have each : ∀ id ∈ imports, ∃ entry, tree.arena.importAt? id = some entry ∧ entry.id = id := by
    intro id member
    obtain ⟨node, nodeFound, admitted⟩ := proper.arena.fitting found ⟨.importEntry, id⟩
      (by simp [Node.slots, member])
    cases node <;> simp [Category.admits] at admitted
    case importDecl path chosenName =>
      exact ⟨⟨id, path, chosenName⟩, by simp only at nodeFound; simp [Arena.importAt?, nodeFound],
        rfl⟩
  simp only [SyntaxTree.imports, found]
  clear found
  induction imports with
  | nil => rfl
  | cons first rest ih =>
    obtain ⟨entry, read, same⟩ := each first (by simp)
    rw [List.filterMap_cons_some read, List.map_cons, same,
      ih fun id member => each id (List.mem_cons_of_mem _ member)]

theorem sourceFile_clean : tree.sourceFile.Clean allowed := by
  obtain ⟨imports, declarations, found⟩ := proper.root
  have shape : tree.sourceFile =
      ⟨tree.imports, declarations.map (tree.arena.declarationAt tree.depth)⟩ := by
    simp [SyntaxTree.sourceFile, found]
  have reads : ∀ slot ∈ (Node.sourceFile imports declarations).slots,
      Arena.ReadsAt allowed tree.arena tree.depth slot := by
    intro slot member
    refine proper.readsTop found member ?_
    simp only [Node.slots, List.mem_append, List.mem_map] at member
    rcases member with ⟨_, _, rfl⟩ | ⟨_, _, rfl⟩ <;> rfl
  refine ⟨?_, ?_, ?_⟩
  · intro entry member
    rw [shape] at member
    simp only [SyntaxTree.imports, found, List.mem_filterMap] at member
    obtain ⟨id, _, read⟩ := member
    simp only [Arena.importAt?] at read
    split at read <;> simp at read
    next path chosenName nodeFound =>
      subst read
      have allowedNames := proper.arena.named nodeFound
      cases chosenName with
      | none => exact allowedNames _ (by simp [Node.names, Import.bindingName])
      | some chosen => exact allowedNames _ (by simp [Node.names, Import.bindingName])
  · intro declaration member
    rw [shape] at member
    obtain ⟨id, idMember, rfl⟩ := List.mem_map.mp member
    exact (reads ⟨.declaration, id⟩ (by simp [Node.slots, idMember])).clean
  · have tree' := proper.arena.sprouts found trivial (tree.arena.idsAt tree.depth)
      (fun slot member => (reads slot member).nodup)
      (fun slot member => (reads slot member).below)
    have inner := (List.nodup_cons.mp tree'.nodup).2
    rw [SourceFile.ids, shape]
    simpa [proper.imports_map_id found, Declaration.idsOfAll_eq, Node.slots, List.flatMap_map,
      Arena.idsAt] using inner

theorem lt_size_of_mem_ids {id : Nat}
    (member : id ∈ tree.sourceFile.ids) : id < tree.arena.locations.size := by
  obtain ⟨imports, declarations, found⟩ := proper.root
  rw [proper.arena.located]
  have inside := Arena.lt_size_of_node? found
  simp only [SourceFile.ids, SyntaxTree.sourceFile, found, proper.imports_map_id found,
    Declaration.idsOfAll_eq, List.mem_append, List.mem_flatMap, List.mem_map] at member
  rcases member with isImport | ⟨_, ⟨child, childMember, rfl⟩, below⟩
  · exact Nat.lt_trans (proper.arena.older found id (by simp [Node.children, isImport])) inside
  · have reads := proper.readsTop found
      (show (⟨.declaration, child⟩ : Slot) ∈ _ by simp [Node.slots, childMember]) rfl
    have smaller := proper.arena.older found child (by simp [Node.children, childMember])
    have atMost := proper.arena.below_le (reads.below id below)
    exact Nat.lt_trans (Nat.lt_of_le_of_lt atMost smaller) inside

end SyntaxTree.Proper

end Toolshed
