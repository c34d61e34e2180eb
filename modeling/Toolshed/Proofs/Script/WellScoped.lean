import Mathlib.Data.List.Nodup
import Toolshed.Proofs.Script.Name
import Toolshed.Proofs.Script.Scoping
import Toolshed.Script.Simplify

namespace Toolshed

/-!
# Scripts that load

A host refuses a script in which a scope binds a name twice or binds a word of
the language, and stops at a name that nothing binds. Simplifying brings in no
such fault.
-/

namespace Script

def unbindableWords : List String :=
  ["arguments", "await", "break", "case", "catch", "class", "const", "continue", "debugger",
    "default", "delete", "do", "else", "enum", "eval", "export", "extends", "false", "finally",
    "for", "function", "if", "implements", "import", "in", "instanceof", "interface", "let", "new",
    "null", "package", "private", "protected", "public", "return", "static", "super", "switch",
    "this", "throw", "true", "try", "typeof", "var", "void", "while", "with", "yield"]

structure Bindable (names : List String) : Prop where
  nodup : names.Nodup
  free : ∀ name ∈ names, name ∉ unbindableWords ∧ name ∉ hostNames

theorem Bindable.nil : Bindable [] :=
  ⟨List.nodup_nil, by simp⟩

theorem unbindableWords_taken :
    ∀ word ∈ unbindableWords,
      PlainName word ∧ (nameOf word ≠ word ∨ Keyword.ofText? word ≠ none) := by
  unfold PlainName
  decide

theorem bindable_nameOf {names : List String} (nodup : names.Nodup)
    (declarable : ∀ name ∈ names, DeclarableName name) : Bindable (names.map nameOf) := by
  refine ⟨nodup.map_on fun first isFirst second isSecond => ?_, fun bound member => ?_⟩
  · exact nameOf_injective (declarable first isFirst).1 (declarable second isSecond).1
  · obtain ⟨name, isName, rfl⟩ := List.mem_map.mp member
    refine ⟨fun isWord => ?_, fun isHost => nameOf_ne_host isHost name rfl⟩
    obtain ⟨plain, taken⟩ := unbindableWords_taken _ isWord
    have same := eq_of_nameOf_eq_plain plain rfl
    rw [← same] at taken
    exact taken.elim (fun differs => differs same.symm) (absurd (declarable name isName).2)

/-- The name by which a function expression can refer to itself. -/
def Function.ownNames : Function → List String
  | .make name _ _ => name.toList

mutual

/--
Every name that an expression uses is bound around it or fixed from outside, and
its scopes can bind their names.
-/
def Expression.WellScoped (fixed bound : List String) : Expression → Prop
  | .identifier name => name ∈ bound ∨ name ∈ fixed
  | .binary _ left right => left.WellScoped fixed bound ∧ right.WellScoped fixed bound
  | .unary _ operand => operand.WellScoped fixed bound
  | .call callee arguments =>
    callee.WellScoped fixed bound ∧ ExpressionsWellScoped fixed bound arguments
  | .member object _ => object.WellScoped fixed bound
  | .function function =>
    Bindable function.ownNames ∧ function.WellScoped fixed (function.ownNames ++ bound)
  | .object properties => PropertiesWellScoped fixed bound properties
  | .assignment target value => (target ∈ bound ∨ target ∈ fixed) ∧ value.WellScoped fixed bound
  | .number _ | .string _ | .boolean _ | .undefined => True

def ExpressionsWellScoped (fixed bound : List String) : List Expression → Prop
  | [] => True
  | first :: rest => first.WellScoped fixed bound ∧ ExpressionsWellScoped fixed bound rest

def Function.WellScoped (fixed bound : List String) : Function → Prop
  | .make _ parameters body =>
    Bindable (parameters ++ declaredNames body) ∧
      WellScoped fixed (parameters ++ declaredNames body ++ bound) body

def PropertiesWellScoped (fixed bound : List String) : List Property → Prop
  | [] => True
  | .value _ value :: rest => value.WellScoped fixed bound ∧ PropertiesWellScoped fixed bound rest
  | .getter _ value :: rest => value.WellScoped fixed bound ∧ PropertiesWellScoped fixed bound rest

/-- A statement is well scoped in a block whose names are bound. -/
def Statement.WellScoped (fixed bound : List String) : Statement → Prop
  | .variable _ _ initial => initial.WellScoped fixed bound
  | .function function => function.WellScoped fixed bound
  | .returnNothing => True
  | .returnValue value => value.WellScoped fixed bound
  | .conditional condition thenBody none =>
    condition.WellScoped fixed bound ∧
      Bindable (declaredNames thenBody) ∧
      WellScoped fixed (declaredNames thenBody ++ bound) thenBody
  | .conditional condition thenBody (some elseBody) =>
    condition.WellScoped fixed bound ∧
      (Bindable (declaredNames thenBody) ∧
        WellScoped fixed (declaredNames thenBody ++ bound) thenBody) ∧
      Bindable (declaredNames elseBody) ∧
      WellScoped fixed (declaredNames elseBody ++ bound) elseBody
  | .loop condition body =>
    condition.WellScoped fixed bound ∧
      Bindable (declaredNames body) ∧ WellScoped fixed (declaredNames body ++ bound) body
  | .block body =>
    Bindable (declaredNames body) ∧ WellScoped fixed (declaredNames body ++ bound) body
  | .expression expression => expression.WellScoped fixed bound

def WellScoped (fixed bound : List String) : List Statement → Prop
  | [] => True
  | first :: rest => first.WellScoped fixed bound ∧ WellScoped fixed bound rest

end

def BlockWellScoped (fixed bound : List String) (body : List Statement) : Prop :=
  Bindable (declaredNames body) ∧ WellScoped fixed (declaredNames body ++ bound) body

/-- A host loads a script that uses no names but its own and some fixed ones. -/
def Loads (fixed : List String) (script : List Statement) : Prop :=
  BlockWellScoped fixed [] script

variable {fixed bound : List String} {first second body thenBody : List Statement}
variable {elseBody : Option (List Statement)} {condition : Expression}

theorem wellScoped_append :
    WellScoped fixed bound (first ++ second) ↔
      WellScoped fixed bound first ∧ WellScoped fixed bound second := by
  induction first with
  | nil => simp [WellScoped]
  | cons statement rest ih =>
    simp [WellScoped, ih, and_assoc]

theorem propertiesWellScoped_append {front back : List Property} :
    PropertiesWellScoped fixed bound (front ++ back) ↔
      PropertiesWellScoped fixed bound front ∧ PropertiesWellScoped fixed bound back := by
  induction front with
  | nil => simp [PropertiesWellScoped]
  | cons property rest ih =>
    cases property <;> simp [PropertiesWellScoped, ih, and_assoc]

theorem wellScoped_conditional :
    (Statement.conditional condition thenBody elseBody).WellScoped fixed bound ↔
      condition.WellScoped fixed bound ∧ BlockWellScoped fixed bound thenBody ∧
        ∀ body ∈ elseBody, BlockWellScoped fixed bound body := by
  cases elseBody <;> simp [Statement.WellScoped, BlockWellScoped]

theorem wellScoped_members (object : Expression) (names : List String) :
    (object.members names).WellScoped fixed bound ↔ object.WellScoped fixed bound := by
  induction names generalizing object with
  | nil => rfl
  | cons name rest ih =>
    rw [Expression.members, ih, Expression.WellScoped]

theorem wellScoped_path {dotted : String} (isFixed : headName dotted ∈ fixed) :
    (Expression.path dotted).WellScoped fixed bound := by
  unfold headName at isFixed
  unfold Expression.path
  split
  · next empty =>
      rw [empty] at isFixed
      exact .inr isFixed
  · next isCons =>
      rw [isCons] at isFixed
      exact (wellScoped_members _ _).mpr (.inr isFixed)

theorem declaredNames_of_not_declares (nothing : body.any Statement.declares = false) :
    declaredNames body = [] := by
  have apart : ∀ statement ∈ body,
      statement.functionName? = none ∧ statement.variableName? = none := by
    intro statement member
    have declaresNothing := List.any_eq_false.mp nothing statement member
    cases statement <;>
      simp_all [Statement.declares, Statement.functionName?, Statement.variableName?]
  rw [declaredNames,
    List.filterMap_eq_nil_iff.mpr fun statement member => (apart statement member).1,
    List.filterMap_eq_nil_iff.mpr fun statement member => (apart statement member).2]
  rfl

theorem declaredNames_splice (body : List Statement) : declaredNames (splice body) = [] := by
  unfold splice
  split
  · rfl
  · next nothing => exact declaredNames_of_not_declares (by simpa using nothing)

theorem names_simpleConditional (condition : Expression) (thenBody : List Statement)
    (elseBody : Option (List Statement)) :
    declaredNames (simpleConditional condition thenBody elseBody) = [] := by
  unfold simpleConditional
  split
  · exact declaredNames_splice thenBody
  · cases elseBody with
    | none => rfl
    | some body => exact declaredNames_splice body
  · rfl

theorem names_simplify_statement (statement : Statement) :
    statement.simplify.filterMap Statement.functionName? = statement.functionName?.toList ∧
      statement.simplify.filterMap Statement.variableName? = statement.variableName?.toList := by
  cases statement with
  | conditional condition thenBody elseBody =>
    cases elseBody <;> exact List.append_eq_nil_iff.mp (names_simpleConditional _ _ _)
  | loop condition body =>
    unfold Statement.simplify simpleLoop
    split <;> exact ⟨rfl, rfl⟩
  | function function =>
    obtain ⟨name, parameters, body⟩ := function
    cases name <;> exact ⟨rfl, rfl⟩
  | _ => exact ⟨rfl, rfl⟩

theorem declaredNames_simplify (body : List Statement) :
    declaredNames (simplify body) = declaredNames body := by
  have both : (simplify body).filterMap Statement.functionName? =
        body.filterMap Statement.functionName? ∧
      (simplify body).filterMap Statement.variableName? =
        body.filterMap Statement.variableName? := by
    induction body with
    | nil => exact ⟨rfl, rfl⟩
    | cons first rest ih =>
      obtain ⟨functions, values⟩ := names_simplify_statement first
      rw [simplify, List.filterMap_append, List.filterMap_append, functions, values,
        ih.1, ih.2, filterMap_cons_toList, filterMap_cons_toList]
      exact ⟨rfl, rfl⟩
  rw [declaredNames, declaredNames, both.1, both.2]

theorem wellScoped_splice (well : BlockWellScoped fixed bound body) :
    WellScoped fixed bound (splice body) := by
  unfold splice
  split
  · exact ⟨well, trivial⟩
  · next nothing =>
      have same := @declaredNames_of_not_declares body (by simpa using nothing)
      rw [BlockWellScoped, same] at well
      exact well.2

theorem wellScoped_simpleConditional
    (well : (Statement.conditional condition thenBody elseBody).WellScoped fixed bound) :
    WellScoped fixed bound (simpleConditional condition thenBody elseBody) := by
  obtain ⟨scopedCondition, scopedThen, scopedElse⟩ := wellScoped_conditional.mp well
  unfold simpleConditional
  split
  · exact wellScoped_splice scopedThen
  · cases elseBody with
    | none => trivial
    | some body => exact wellScoped_splice (scopedElse body rfl)
  · exact ⟨well, trivial⟩

theorem wellScoped_simpleLoop (well : (Statement.loop condition body).WellScoped fixed bound) :
    WellScoped fixed bound (simpleLoop condition body) := by
  unfold simpleLoop
  split
  · trivial
  · exact ⟨well, trivial⟩

theorem wellScoped_simpleBinary {operator : BinaryOp} {left right : Expression}
    (scopedLeft : left.WellScoped fixed bound) (scopedRight : right.WellScoped fixed bound) :
    (simpleBinary operator left right).WellScoped fixed bound := by
  unfold simpleBinary
  cases found : foldBinary operator left right with
  | none => exact ⟨scopedLeft, scopedRight⟩
  | some folded =>
    unfold foldBinary at found
    split at found
    · unfold foldNumbers at found
      split at found <;> grind [Expression.WellScoped]
    · unfold foldStrings at found
      split at found <;> grind [Expression.WellScoped]
    · unfold foldBoolean at found
      split at found <;> grind [Expression.WellScoped]
    · simp at found

theorem wellScoped_simpleUnary {operator : UnaryOp} {operand : Expression}
    (well : operand.WellScoped fixed bound) :
    (simpleUnary operator operand).WellScoped fixed bound := by
  unfold simpleUnary
  split
  · trivial
  · trivial
  · exact well

theorem blockWellScoped_simplify (well : BlockWellScoped fixed bound body)
    (simple : WellScoped fixed (declaredNames body ++ bound) (simplify body)) :
    BlockWellScoped fixed bound (simplify body) := by
  unfold BlockWellScoped
  rw [declaredNames_simplify]
  exact ⟨well.1, simple⟩

mutual

theorem Expression.wellScoped_simplify (expression : Expression) {bound : List String}
    (well : expression.WellScoped fixed bound) :
    expression.simplify.WellScoped fixed bound := by
  cases expression with
  | binary operator left right =>
    exact wellScoped_simpleBinary (left.wellScoped_simplify well.1)
      (right.wellScoped_simplify well.2)
  | unary operator operand =>
    exact wellScoped_simpleUnary (operand.wellScoped_simplify well)
  | call callee arguments =>
    exact ⟨callee.wellScoped_simplify well.1, expressionsWellScoped_simplify arguments well.2⟩
  | member object name =>
    exact object.wellScoped_simplify well
  | function function =>
    have sameName : function.simplify.ownNames = function.ownNames := by
      cases function
      rfl
    unfold Expression.simplify Expression.WellScoped
    rw [sameName]
    exact ⟨well.1, function.wellScoped_simplify well.2⟩
  | object properties =>
    exact propertiesWellScoped_simplify properties well
  | assignment target value =>
    exact ⟨well.1, value.wellScoped_simplify well.2⟩
  | number | string | boolean | undefined | identifier => exact well

theorem expressionsWellScoped_simplify (expressions : List Expression) {bound : List String}
    (well : ExpressionsWellScoped fixed bound expressions) :
    ExpressionsWellScoped fixed bound (simplifyExpressions expressions) := by
  cases expressions with
  | nil => trivial
  | cons first rest =>
    exact ⟨first.wellScoped_simplify well.1, expressionsWellScoped_simplify rest well.2⟩

theorem Function.wellScoped_simplify (function : Function) {bound : List String}
    (well : function.WellScoped fixed bound) : function.simplify.WellScoped fixed bound := by
  obtain ⟨name, parameters, body⟩ := function
  unfold Function.simplify Function.WellScoped
  rw [declaredNames_simplify]
  exact ⟨well.1, wellScoped_simplify body well.2⟩

theorem propertiesWellScoped_simplify (properties : List Property) {bound : List String}
    (well : PropertiesWellScoped fixed bound properties) :
    PropertiesWellScoped fixed bound (simplifyProperties properties) := by
  match properties with
  | [] => trivial
  | .value key value :: rest | .getter key value :: rest =>
    exact ⟨value.wellScoped_simplify well.1, propertiesWellScoped_simplify rest well.2⟩

theorem Statement.wellScoped_simplify (statement : Statement) {bound : List String}
    (well : statement.WellScoped fixed bound) : WellScoped fixed bound statement.simplify := by
  cases statement with
  | «variable» kind name initial =>
    exact ⟨initial.wellScoped_simplify well, trivial⟩
  | function function =>
    exact ⟨function.wellScoped_simplify well, trivial⟩
  | returnNothing => exact ⟨trivial, trivial⟩
  | returnValue value =>
    exact ⟨value.wellScoped_simplify well, trivial⟩
  | conditional condition thenBody elseBody =>
    obtain ⟨wellCondition, wellThen, wellElse⟩ := wellScoped_conditional.mp well
    have simpleCondition := condition.wellScoped_simplify wellCondition
    have simpleThen := blockWellScoped_simplify wellThen (wellScoped_simplify thenBody wellThen.2)
    cases elseBody with
    | none =>
      exact wellScoped_simpleConditional
        (wellScoped_conditional.mpr ⟨simpleCondition, simpleThen, by simp⟩)
    | some body =>
      have simpleElse := blockWellScoped_simplify (wellElse body rfl)
        (wellScoped_simplify body (wellElse body rfl).2)
      exact wellScoped_simpleConditional
        (wellScoped_conditional.mpr ⟨simpleCondition, simpleThen, by simpa using simpleElse⟩)
  | loop condition body =>
    exact wellScoped_simpleLoop
      ⟨condition.wellScoped_simplify well.1,
        blockWellScoped_simplify well.2 (wellScoped_simplify body well.2.2)⟩
  | block body =>
    exact ⟨blockWellScoped_simplify well (wellScoped_simplify body well.2), trivial⟩
  | expression expression =>
    exact ⟨expression.wellScoped_simplify well, trivial⟩

theorem wellScoped_simplify (body : List Statement) {bound : List String}
    (well : WellScoped fixed bound body) : WellScoped fixed bound (simplify body) := by
  cases body with
  | nil => trivial
  | cons first rest =>
    exact wellScoped_append.mpr ⟨first.wellScoped_simplify well.1, wellScoped_simplify rest well.2⟩

end

theorem Loads.simplify {script : List Statement} (loads : Loads fixed script) :
    Loads fixed (simplify script) :=
  blockWellScoped_simplify loads (wellScoped_simplify script loads.2)

end Script

end Toolshed
