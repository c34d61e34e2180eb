import Toolshed.Script.Basic

namespace Toolshed

/-!
# What names in scripts refer to

A `const`, `let` or function declaration is in scope in the whole block or body
that contains it, before its own place too. A name refers to the innermost scope
that declares it.
-/

def innermost? {α : Type} (find : α → Option Nat) : List α → Option (Nat × Nat)
  | [] => none
  | scope :: rest =>
    match find scope with
    | some place => some (0, place)
    | none => (innermost? find rest).map fun (depth, place) => (depth + 1, place)

namespace Script

def Statement.functionName? : Statement → Option String
  | .function (.make name _ _) => name
  | _ => none

def Statement.variableName? : Statement → Option String
  | .variable _ name _ => some name
  | _ => none

def declaredNames (body : List Statement) : List String :=
  body.filterMap Statement.functionName? ++ body.filterMap Statement.variableName?

/-- A use of a name, with the names of the scopes around it, the innermost first. -/
structure Reference where
  name : String
  scopes : List (List String)
  deriving Repr, DecidableEq

def lastPlace? (name : String) : List String → Option Nat
  | [] => none
  | first :: rest =>
    match lastPlace? name rest with
    | some place => some (place + 1)
    | none => if first = name then some 0 else none

/--
The scope that a name refers to, by the number of scopes inside it, and its place
there. Of two parameters with one name, the last one counts.
-/
def Reference.binder? (reference : Reference) : Option (Nat × Nat) :=
  innermost? (lastPlace? reference.name) reference.scopes

/-- The scope in which a function expression can refer to itself. -/
def Function.ownScope : Function → List (List String)
  | .make (some name) _ _ => [[name]]
  | .make none _ _ => []

mutual

def Expression.references (scopes : List (List String)) : Expression → List Reference
  | .identifier name => [⟨name, scopes⟩]
  | .binary _ left right => left.references scopes ++ right.references scopes
  | .unary _ operand => operand.references scopes
  | .call callee arguments => callee.references scopes ++ referencesOfAll scopes arguments
  | .member object _ => object.references scopes
  | .function function => function.references (function.ownScope ++ scopes)
  | .object properties => propertyReferences scopes properties
  | .assignment target value => ⟨target, scopes⟩ :: value.references scopes
  | .number _ | .string _ | .boolean _ | .undefined => []

def referencesOfAll (scopes : List (List String)) : List Expression → List Reference
  | [] => []
  | first :: rest => first.references scopes ++ referencesOfAll scopes rest

def Function.references (scopes : List (List String)) : Function → List Reference
  | .make _ parameters body =>
    statementReferences ((parameters ++ declaredNames body) :: scopes) body

def propertyReferences (scopes : List (List String)) : List Property → List Reference
  | [] => []
  | .value _ value :: rest => value.references scopes ++ propertyReferences scopes rest
  | .getter _ value :: rest => value.references scopes ++ propertyReferences scopes rest

def Statement.references (scopes : List (List String)) : Statement → List Reference
  | .variable _ _ initial => initial.references scopes
  | .function function => function.references scopes
  | .returnNothing => []
  | .returnValue value => value.references scopes
  | .conditional condition thenBody none =>
    condition.references scopes ++ statementReferences (declaredNames thenBody :: scopes) thenBody
  | .conditional condition thenBody (some elseBody) =>
    condition.references scopes ++
      statementReferences (declaredNames thenBody :: scopes) thenBody ++
      statementReferences (declaredNames elseBody :: scopes) elseBody
  | .loop condition body =>
    condition.references scopes ++ statementReferences (declaredNames body :: scopes) body
  | .block body => statementReferences (declaredNames body :: scopes) body
  | .expression expression => expression.references scopes

def statementReferences (scopes : List (List String)) : List Statement → List Reference
  | [] => []
  | first :: rest => first.references scopes ++ statementReferences scopes rest

end

def references (script : List Statement) : List Reference :=
  statementReferences [declaredNames script] script

theorem filterMap_cons_toList {α β : Type} (name? : α → Option β) (first : α) (rest : List α) :
    (first :: rest).filterMap name? = (name? first).toList ++ rest.filterMap name? := by
  cases isName : name? first <;> simp [isName]

theorem declaredNames_concat {last : Statement} (body : List Statement)
    (noFunction : last.functionName? = none) (noVariable : last.variableName? = none) :
    declaredNames (body ++ [last]) = declaredNames body := by
  simp [declaredNames, noFunction, noVariable]

theorem statementReferences_append (scopes : List (List String)) (first second : List Statement) :
    statementReferences scopes (first ++ second) =
      statementReferences scopes first ++ statementReferences scopes second := by
  induction first with
  | nil => simp [statementReferences]
  | cons statement rest ih =>
    simp [statementReferences, ih]

def branchReferences (scopes : List (List String)) : Option (List Statement) → List Reference
  | none => []
  | some body => statementReferences (declaredNames body :: scopes) body

theorem references_conditional (scopes : List (List String)) (condition : Expression)
    (thenBody : List Statement) (elseBody : Option (List Statement)) :
    (Statement.conditional condition thenBody elseBody).references scopes =
      condition.references scopes ++
        statementReferences (declaredNames thenBody :: scopes) thenBody ++
        branchReferences scopes elseBody := by
  cases elseBody <;> simp [Statement.references, branchReferences]

theorem propertyReferences_append (scopes : List (List String)) (first second : List Property) :
    propertyReferences scopes (first ++ second) =
      propertyReferences scopes first ++ propertyReferences scopes second := by
  induction first with
  | nil => simp [propertyReferences]
  | cons property rest ih =>
    cases property <;> simp [propertyReferences, ih]

theorem references_members (scopes : List (List String)) (object : Expression)
    (names : List String) :
    (object.members names).references scopes = object.references scopes := by
  induction names generalizing object with
  | nil => rfl
  | cons name rest ih =>
    rw [Expression.members, ih, Expression.references]

def headName (dotted : String) : String :=
  (ModulePath.parse dotted).segments.headD ""

theorem references_path (scopes : List (List String)) (dotted : String) :
    (Expression.path dotted).references scopes = [⟨headName dotted, scopes⟩] := by
  unfold Expression.path headName
  split
  · next empty => simp [empty, Expression.references]
  · next isCons => simp [isCons, references_members, Expression.references]

end Script

end Toolshed
