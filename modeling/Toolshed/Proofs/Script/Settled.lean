import Toolshed.Script.Simplify

namespace Toolshed

/-!
# Nothing is left to simplify

A simplified script has nothing that literals decide, and such a script is
simplified to itself.
-/

namespace Script

variable {operator : BinaryOp} {left right folded condition : Expression}
variable {body thenBody : List Statement} {elseBody : Option (List Statement)}

def isDecided : BinaryOp → Expression → Expression → Bool
  | .and, .boolean _, _ | .or, .boolean _, _ => true
  | .and, _, _ | .or, _, _ => false
  | .equal, .boolean _, .boolean _ | .notEqual, .boolean _, .boolean _ => true
  | .equal, .string _, .string _ | .notEqual, .string _, .string _ | .add, .string _, .string _ =>
    true
  | .divide, .number _, .number divisor | .remainder, .number _, .number divisor => !divisor.isZero
  | _, .number _, .number _ => true
  | _, _, _ => false

mutual

def Expression.Settled : Expression → Prop
  | .binary operator left right =>
    left.Settled ∧ right.Settled ∧ isDecided operator left right = false
  | .unary .negate operand => operand.Settled ∧ ∀ value, operand ≠ .number value
  | .unary .not operand => operand.Settled ∧ ∀ value, operand ≠ .boolean value
  | .call callee arguments => callee.Settled ∧ AllSettled arguments
  | .member object _ => object.Settled
  | .function (.make _ _ body) => BodySettled body
  | .object properties => PropertiesSettled properties
  | .assignment _ value => value.Settled
  | .number _ | .string _ | .boolean _ | .undefined | .identifier _ => True

def AllSettled : List Expression → Prop
  | [] => True
  | first :: rest => first.Settled ∧ AllSettled rest

def PropertiesSettled : List Property → Prop
  | [] => True
  | .value _ value :: rest | .getter _ value :: rest => value.Settled ∧ PropertiesSettled rest

def Statement.Settled : Statement → Prop
  | .variable _ _ value | .returnValue value | .expression value => value.Settled
  | .function (.make _ _ body) | .block body => BodySettled body
  | .returnNothing => True
  | .conditional condition thenBody elseBody =>
    condition.Settled ∧ (∀ value, condition ≠ .boolean value) ∧ BodySettled thenBody ∧
      BranchSettled elseBody
  | .loop condition body => condition.Settled ∧ condition ≠ .boolean false ∧ BodySettled body

def BranchSettled : Option (List Statement) → Prop
  | none => True
  | some body => BodySettled body

def BodySettled : List Statement → Prop
  | [] => True
  | first :: rest => first.Settled ∧ BodySettled rest

end

theorem foldBinary_eq_none_iff :
    foldBinary operator left right = none ↔ isDecided operator left right = false := by
  unfold foldBinary
  split
  · cases operator <;> simp [foldNumbers, isDecided]
  · cases operator <;> simp [foldStrings, isDecided]
  · cases operator <;> cases right <;> simp [foldBoolean, isDecided]
  · unfold isDecided
    split <;> simp_all

theorem settled_simpleBinary (isLeft : left.Settled) (isRight : right.Settled) :
    (simpleBinary operator left right).Settled := by
  unfold simpleBinary
  cases found : foldBinary operator left right with
  | none => exact ⟨isLeft, isRight, foldBinary_eq_none_iff.mp found⟩
  | some folded =>
    -- A result is a literal or the right operand.
    unfold foldBinary at found
    split at found
    · cases operator <;> grind [foldNumbers, Expression.Settled]
    · cases operator <;> grind [foldStrings, Expression.Settled]
    · unfold foldBoolean at found
      grind [Expression.Settled]
    · cases found

theorem settled_simpleUnary {operator : UnaryOp} {operand : Expression}
    (settled : operand.Settled) : (simpleUnary operator operand).Settled := by
  unfold simpleUnary
  split
  · trivial
  · trivial
  · cases operator <;> grind [Expression.Settled]

theorem bodySettled_append {first rest : List Statement} (isFirst : BodySettled first)
    (isRest : BodySettled rest) : BodySettled (first ++ rest) := by
  induction first with
  | nil => exact isRest
  | cons statement others ih => exact ⟨isFirst.1, ih isFirst.2⟩

theorem bodySettled_splice (settled : BodySettled body) : BodySettled (splice body) := by
  unfold splice
  split
  · exact ⟨settled, trivial⟩
  · exact settled

theorem bodySettled_simpleConditional (isCondition : condition.Settled)
    (isThen : BodySettled thenBody) (isElse : BranchSettled elseBody) :
    BodySettled (simpleConditional condition thenBody elseBody) := by
  unfold simpleConditional
  split
  · exact bodySettled_splice isThen
  · cases elseBody with
    | none => trivial
    | some elseBody => exact bodySettled_splice isElse
  · refine ⟨⟨isCondition, ?_, isThen, isElse⟩, trivial⟩
    rintro (_ | _) rfl <;> contradiction

theorem simpleConditional_eq (undecided : ∀ value, condition ≠ .boolean value) :
    simpleConditional condition thenBody elseBody = [.conditional condition thenBody elseBody] := by
  unfold simpleConditional
  split <;> simp_all

theorem bodySettled_simpleLoop (isCondition : condition.Settled) (isBody : BodySettled body) :
    BodySettled (simpleLoop condition body) := by
  unfold simpleLoop
  split
  · trivial
  · rename_i notFalse
    exact ⟨⟨isCondition, notFalse, isBody⟩, trivial⟩

theorem simpleLoop_eq (undecided : condition ≠ .boolean false) :
    simpleLoop condition body = [.loop condition body] := by
  unfold simpleLoop
  split <;> simp_all

mutual

theorem Expression.settled_simplify : (expression : Expression) → expression.simplify.Settled
  | .binary _ left right => settled_simpleBinary left.settled_simplify right.settled_simplify
  | .unary _ operand => settled_simpleUnary operand.settled_simplify
  | .call callee arguments => ⟨callee.settled_simplify, allSettled_simplify arguments⟩
  | .member object _ => object.settled_simplify
  | .function (.make _ _ body) => bodySettled_simplify body
  | .object properties => propertiesSettled_simplify properties
  | .assignment _ value => value.settled_simplify
  | .number _ | .string _ | .boolean _ | .undefined | .identifier _ => trivial

theorem allSettled_simplify : (expressions : List Expression) →
    AllSettled (simplifyExpressions expressions)
  | [] => trivial
  | first :: rest => ⟨first.settled_simplify, allSettled_simplify rest⟩

theorem propertiesSettled_simplify : (properties : List Property) →
    PropertiesSettled (simplifyProperties properties)
  | [] => trivial
  | .value _ value :: rest | .getter _ value :: rest =>
    ⟨value.settled_simplify, propertiesSettled_simplify rest⟩

theorem Statement.settled_simplify : (statement : Statement) → BodySettled statement.simplify
  | .variable _ _ value | .returnValue value | .expression value =>
    ⟨value.settled_simplify, trivial⟩
  | .function (.make _ _ body) | .block body => ⟨bodySettled_simplify body, trivial⟩
  | .returnNothing => ⟨trivial, trivial⟩
  | .conditional condition thenBody none =>
    bodySettled_simpleConditional condition.settled_simplify (bodySettled_simplify thenBody) trivial
  | .conditional condition thenBody (some elseBody) =>
    bodySettled_simpleConditional condition.settled_simplify (bodySettled_simplify thenBody)
      (bodySettled_simplify elseBody)
  | .loop condition body =>
    bodySettled_simpleLoop condition.settled_simplify (bodySettled_simplify body)

theorem bodySettled_simplify : (body : List Statement) → BodySettled (simplify body)
  | [] => trivial
  | first :: rest => bodySettled_append first.settled_simplify (bodySettled_simplify rest)

end

mutual

theorem simplifyExpression_eq : {expression : Expression} → expression.Settled →
    expression.simplify = expression
  | .binary _ _ _, settled => by
    rw [Expression.simplify, simplifyExpression_eq settled.1, simplifyExpression_eq settled.2.1,
      simpleBinary, foldBinary_eq_none_iff.mpr settled.2.2, Option.getD_none]
  | .unary operator operand, settled => by
    have isOperand : operand.Settled := by cases operator <;> exact settled.1
    rw [Expression.simplify, simplifyExpression_eq isOperand]
    unfold simpleUnary
    split
    · exact absurd rfl (settled.2 _)
    · exact absurd rfl (settled.2 _)
    · rfl
  | .call _ _, settled => by
    rw [Expression.simplify, simplifyExpression_eq settled.1, simplifyExpressions_eq settled.2]
  | .member _ property, settled =>
    congrArg (Expression.member · property) (simplifyExpression_eq settled)
  | .assignment target _, settled =>
    congrArg (Expression.assignment target) (simplifyExpression_eq settled)
  | .function (.make _ _ _), settled => by
    rw [Expression.simplify, Function.simplify, simplify_eq_self settled]
  | .object _, settled => by
    rw [Expression.simplify, simplifyProperties_eq settled]
  | .number _, _ | .string _, _ | .boolean _, _ | .undefined, _ | .identifier _, _ => rfl

theorem simplifyExpressions_eq : {expressions : List Expression} → AllSettled expressions →
    simplifyExpressions expressions = expressions
  | [], _ => rfl
  | _ :: _, settled => by
    rw [simplifyExpressions, simplifyExpression_eq settled.1, simplifyExpressions_eq settled.2]

theorem simplifyProperties_eq : {properties : List Property} → PropertiesSettled properties →
    simplifyProperties properties = properties
  | [], _ => rfl
  | .value _ _ :: _, settled | .getter _ _ :: _, settled => by
    rw [simplifyProperties, Property.simplify, simplifyExpression_eq settled.1,
      simplifyProperties_eq settled.2]

theorem simplifyStatement_eq : {statement : Statement} → statement.Settled →
    statement.simplify = [statement]
  | .variable _ _ _, settled | .returnValue _, settled | .expression _, settled => by
    rw [Statement.simplify, simplifyExpression_eq settled]
  | .function (.make _ _ _), settled => by
    rw [Statement.simplify, Function.simplify, simplify_eq_self settled]
  | .block _, settled => by
    rw [Statement.simplify, simplify_eq_self settled]
  | .returnNothing, _ => rfl
  | .conditional _ _ none, settled => by
    rw [Statement.simplify, simplifyExpression_eq settled.1, simplify_eq_self settled.2.2.1,
      simpleConditional_eq settled.2.1]
  | .conditional _ _ (some _), settled => by
    rw [Statement.simplify, simplifyExpression_eq settled.1, simplify_eq_self settled.2.2.1,
      simplify_eq_self settled.2.2.2, simpleConditional_eq settled.2.1]
  | .loop _ _, settled => by
    rw [Statement.simplify, simplifyExpression_eq settled.1, simplify_eq_self settled.2.2,
      simpleLoop_eq settled.2.1]

theorem simplify_eq_self : {body : List Statement} → BodySettled body → simplify body = body
  | [], _ => rfl
  | _ :: _, settled => by
    rw [simplify, simplifyStatement_eq settled.1, simplify_eq_self settled.2, List.singleton_append]

end

/--
A simplified script is simplified to itself, and nothing is left in it at any
depth that literals decide.
-/
theorem simplify_settles (body : List Statement) :
    simplify (simplify body) = simplify body ∧ BodySettled (simplify body) :=
  ⟨simplify_eq_self (bodySettled_simplify body), bodySettled_simplify body⟩

end Script

end Toolshed
