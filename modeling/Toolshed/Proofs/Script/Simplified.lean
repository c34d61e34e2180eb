import Toolshed.Proofs.Script.Simulation

namespace Toolshed

/-!
# Simpler scripts do the same

Operators on literals have the result that replaces them, and a branch that
always runs makes no variables unless it is kept in a block. For calls the proof
is by induction on how deep they nest.
-/

namespace Script

open Evaluation

variable {machine : Machine}

variable {operator : BinaryOp} {folded : Expression} {statement : Statement} {function : Function}
variable {direct : Bool} {body : List Statement}

theorem evaluate_binary (machine : Machine) (scope : Scope) (left right : Expression)
    (notAnd : operator ≠ .and) (notOr : operator ≠ .or) :
    (Expression.binary operator left right).evaluate machine scope =
      (do
        let left ← left.evaluate machine scope
        let right ← right.evaluate machine scope
        machine.operate operator left right) := by
  cases operator with
  | and => exact absurd rfl notAnd
  | or => exact absurd rfl notOr
  | _ => rfl

theorem evaluate_foldNumbers {left right : Double} (scope : Scope)
    (found : foldNumbers operator left right = some folded) :
    folded.evaluate machine scope =
      (Expression.binary operator (.number left) (.number right)).evaluate machine scope := by
  cases operator with
  | divide =>
    rw [foldNumbers] at found
    split at found
    · cases found
    · cases found
      rfl
  | remainder =>
    rw [foldNumbers] at found
    split at found
    · cases found
    · cases found
      rfl
  | and => cases found
  | or => cases found
  | _ =>
    cases found
    rfl

theorem evaluate_foldStrings {left right : String} (scope : Scope)
    (found : foldStrings operator left right = some folded) :
    folded.evaluate machine scope =
      (Expression.binary operator (.string left) (.string right)).evaluate machine scope := by
  cases operator with
  | add =>
    cases found
    rfl
  | equal =>
    cases found
    show pure (Value.boolean _) = pure (Value.boolean _)
    simp [Value.isSame]
  | notEqual =>
    cases found
    show pure (Value.boolean _) = pure (Value.boolean _)
    simp [Value.isSame]
  | _ => cases found

theorem evaluate_foldBoolean {left : Bool} {right : Expression} (scope : Scope)
    (found : foldBoolean operator left right = some folded) :
    folded.evaluate machine scope =
      (Expression.binary operator (.boolean left) right).evaluate machine scope := by
  unfold foldBoolean at found
  split at found
  · cases found
    show pure (Value.boolean _) = pure (Value.boolean _)
    simp [Value.isSame]
  · cases found
    show pure (Value.boolean _) = pure (Value.boolean _)
    simp [Value.isSame]
  · cases found
    cases left <;> rfl
  · cases found
    cases left <;> rfl
  · cases found

theorem evaluate_simpleBinary (scope : Scope) (operator : BinaryOp) (left right : Expression) :
    (simpleBinary operator left right).evaluate machine scope =
      (Expression.binary operator left right).evaluate machine scope := by
  rw [simpleBinary]
  cases found : foldBinary operator left right with
  | none => rfl
  | some folded =>
    unfold foldBinary at found
    split at found
    · exact evaluate_foldNumbers scope found
    · exact evaluate_foldStrings scope found
    · exact evaluate_foldBoolean scope found
    · cases found

theorem evaluate_simpleUnary (scope : Scope) (operator : UnaryOp) (operand : Expression) :
    (simpleUnary operator operand).evaluate machine scope =
      (Expression.unary operator operand).evaluate machine scope := by
  unfold simpleUnary
  split <;> rfl

theorem Statement.binding?_eq_none (declares : statement.declares = false) :
    statement.binding? = none := by
  match statement with
  | .variable .. => cases declares
  | .function _ => cases declares
  | .returnNothing | .returnValue _ | .conditional .. | .loop .. | .block _ | .expression _ => rfl

theorem filterMap_binding?_splice (body : List Statement) :
    (splice body).filterMap Statement.binding? = [] := by
  rw [splice]
  split
  · rfl
  · next undeclared =>
      rw [List.filterMap_eq_nil_iff]
      intro statement member
      apply Statement.binding?_eq_none
      simpa using fun declares => undeclared (List.any_eq_true.mpr ⟨statement, member, declares⟩)

theorem filterMap_binding?_simpleConditional (condition : Expression) (thenBody : List Statement)
    (elseBody : Option (List Statement)) :
    (simpleConditional condition thenBody elseBody).filterMap Statement.binding? = [] := by
  unfold simpleConditional
  split
  · exact filterMap_binding?_splice thenBody
  · cases elseBody with
    | none => rfl
    | some elseBody => exact filterMap_binding?_splice elseBody
  · rfl

theorem Statement.filterMap_binding?_simplify (statement : Statement) :
    statement.simplify.filterMap Statement.binding? = statement.binding?.toList := by
  match statement with
  | .variable kind _ _ => cases kind <;> rfl
  | .function (.make none _ _) => rfl
  | .function (.make (some _) _ _) => rfl
  | .conditional _ _ none => exact filterMap_binding?_simpleConditional _ _ _
  | .conditional _ _ (some _) => exact filterMap_binding?_simpleConditional _ _ _
  | .loop condition body =>
    unfold Statement.simplify simpleLoop
    split <;> rfl
  | .returnNothing | .returnValue _ | .block _ | .expression _ => rfl

theorem filterMap_binding?_simplify (body : List Statement) :
    (simplify body).filterMap Statement.binding? = body.filterMap Statement.binding? := by
  induction body with
  | nil => rfl
  | cons first rest ih =>
    rw [simplify, List.filterMap_append, first.filterMap_binding?_simplify,
      ih, List.filterMap_cons]
    cases first.binding? <;> rfl

theorem hoistedNames_append (first rest : List Statement) :
    hoistedNames (first ++ rest) = hoistedNames first ++ hoistedNames rest := by
  induction first with
  | nil => rfl
  | cons statement others ih =>
    rw [List.cons_append, hoistedNames, hoistedNames, ih, List.append_assoc]

theorem hoistedNames_singleton (statement : Statement) :
    hoistedNames [statement] = statement.hoistedNames := by
  rw [hoistedNames, hoistedNames, List.append_nil]

theorem hoistedNames_splice (body : List Statement) :
    hoistedNames (splice body) = hoistedNames body := by
  rw [splice]
  split
  · rw [hoistedNames_singleton, Statement.hoistedNames]
  · rfl

mutual

theorem Statement.hoistedNames_of_tidy : {statement : Statement} →
    statement.Tidy false → statement.hoistedNames = []
  | .variable kind _ _, tidy => by
      cases kind with
      | hoisted => exact absurd (tidy.1 rfl) Bool.false_ne_true
      | _ => rfl
  | .conditional _ thenBody none, tidy => by
      rw [Statement.hoistedNames, hoistedNames_of_tidy tidy.2]
  | .conditional _ thenBody (some elseBody), tidy => by
      rw [Statement.hoistedNames, hoistedNames_of_tidy tidy.2.1, hoistedNames_of_tidy tidy.2.2]
      rfl
  | .loop _ body, tidy => by
      rw [Statement.hoistedNames, hoistedNames_of_tidy tidy.2]
  | .block body, tidy => by
      rw [Statement.hoistedNames, hoistedNames_of_tidy tidy]
  | .function _, _ | .returnNothing, _ | .returnValue _, _ | .expression _, _ => rfl

theorem hoistedNames_of_tidy : {body : List Statement} →
    TidyBody false body → hoistedNames body = []
  | [], _ => rfl
  | first :: rest, tidy => by
      rw [hoistedNames, first.hoistedNames_of_tidy tidy.1, hoistedNames_of_tidy tidy.2]
      rfl

end

mutual

theorem Statement.hoistedNames_simplify {direct : Bool} : {statement : Statement} →
    statement.Tidy direct → hoistedNames statement.simplify = statement.hoistedNames
  | .variable kind _ _, _ => by
      cases kind <;> rfl
  | .conditional condition thenBody none, tidy => by
      have simpler := (hoistedNames_simplify tidy.2).trans (hoistedNames_of_tidy tidy.2)
      rw [Statement.hoistedNames, hoistedNames_of_tidy tidy.2, Statement.simplify]
      unfold simpleConditional
      split
      · rw [hoistedNames_splice, simpler]
      · rfl
      · rw [hoistedNames_singleton, Statement.hoistedNames, simpler]
  | .conditional condition thenBody (some elseBody), tidy => by
      have simplerThen := (hoistedNames_simplify tidy.2.1).trans (hoistedNames_of_tidy tidy.2.1)
      have simplerElse := (hoistedNames_simplify tidy.2.2).trans (hoistedNames_of_tidy tidy.2.2)
      rw [Statement.hoistedNames, hoistedNames_of_tidy tidy.2.1, hoistedNames_of_tidy tidy.2.2,
        Statement.simplify]
      unfold simpleConditional
      split
      · rw [hoistedNames_splice, simplerThen]
        rfl
      · exact (hoistedNames_splice _).trans simplerElse
      · rw [hoistedNames_singleton, Statement.hoistedNames, simplerThen, simplerElse]
  | .loop condition body, tidy => by
      rw [Statement.hoistedNames, hoistedNames_of_tidy tidy.2, Statement.simplify]
      unfold simpleLoop
      split
      · rfl
      · rw [hoistedNames_singleton, Statement.hoistedNames, hoistedNames_simplify tidy.2,
          hoistedNames_of_tidy tidy.2]
  | .block body, tidy => by
      rw [Statement.simplify, hoistedNames_singleton, Statement.hoistedNames,
        Statement.hoistedNames, hoistedNames_simplify tidy]
  | .function _, _ | .returnNothing, _ | .returnValue _, _ | .expression _, _ => rfl

theorem hoistedNames_simplify {direct : Bool} : {body : List Statement} →
    TidyBody direct body → hoistedNames (simplify body) = hoistedNames body
  | [], _ => rfl
  | first :: rest, tidy => by
      rw [simplify, hoistedNames_append, first.hoistedNames_simplify tidy.1,
        hoistedNames_simplify tidy.2, hoistedNames]

end

theorem declare_same (scope : Scope) (entries : List (String × Cell)) :
    Same (declare scope entries) (declare scope entries) := by
  induction entries generalizing scope with
  | nil => exact .pure rfl
  | cons entry rest ih =>
    exact (newCell_same entry.2).andThen fun address => ih _

theorem Function.tidyEntity (tidy : function.Tidy) (scope : Scope) :
    Entity.Tidy ⟨some (function, scope), []⟩ where
  code _ _ found := by
    cases found
    exact tidy
  slots _ _ member := by cases member

theorem newFunction_same (tidy : function.Tidy) (scope : Scope) :
    Same (newFunction scope function.simplify) (newFunction scope function) := by
  obtain ⟨name, parameters, body⟩ := function
  cases name with
  | none => exact newObject_same (Function.tidyEntity tidy scope)
  | some name =>
    apply (newCell_same _).andThen
    intro address
    apply (newObject_same (Function.tidyEntity tidy ((name, address) :: scope))).andThen
    exact fun _ => (initialise_same _ _).andThen fun _ => .pure rfl

theorem defineFunctions_cons (scope : Scope) (first : Statement) (rest : List Statement) :
    defineFunctions scope (first :: rest) =
      (do
        defineFunctions scope [first]
        defineFunctions scope rest) := by
  match first with
  | .function (.make (some name) parameters body) =>
    simp only [defineFunctions]
    funext function
    cases scope.lookup name <;> rfl
  | .function (.make none _ _) => rfl
  | .variable .. | .returnNothing | .returnValue _ | .conditional .. | .loop .. | .block _
  | .expression _ => rfl

theorem defineFunctions_append (scope : Scope) (first rest : List Statement) :
    defineFunctions scope (first ++ rest) =
      (do
        defineFunctions scope first
        defineFunctions scope rest) := by
  induction first with
  | nil => rfl
  | cons statement others ih =>
    rw [List.cons_append, defineFunctions_cons, ih,
      defineFunctions_cons scope statement others, bind_assoc]

theorem defineFunctions_splice (scope : Scope) (body : List Statement) :
    defineFunctions scope (splice body) = pure () := by
  rw [splice]
  split
  · rfl
  · next undeclared =>
      induction body with
      | nil => rfl
      | cons first rest ih =>
        rw [List.any_cons, Bool.or_eq_true, not_or] at undeclared
        rw [defineFunctions_cons, ih undeclared.2]
        match first, undeclared.1 with
        | .function _, declares | .variable .., declares => exact absurd rfl declares
        | .returnNothing, _ | .returnValue _, _ | .conditional .., _ | .loop .., _
        | .block _, _ | .expression _, _ => rfl

theorem defineFunctions_simpleConditional (scope : Scope) (condition : Expression)
    (thenBody : List Statement) (elseBody : Option (List Statement)) :
    defineFunctions scope (simpleConditional condition thenBody elseBody) = pure () := by
  unfold simpleConditional
  split
  · exact defineFunctions_splice scope thenBody
  · cases elseBody with
    | none => rfl
    | some elseBody => exact defineFunctions_splice scope elseBody
  · rfl

theorem Statement.defineFunctions_same (tidy : statement.Tidy direct) (scope : Scope) :
    Same (defineFunctions scope statement.simplify) (defineFunctions scope [statement]) := by
  match statement with
  | .function (.make (some name) parameters body) =>
    apply (newObject_same (Function.tidyEntity tidy scope)).andThen
    intro function
    cases scope.lookup name with
    | none => exact .pure rfl
    | some address => exact (initialise_same address function).andThen fun _ => .pure rfl
  | .function (.make none _ _) => exact .pure rfl
  | .conditional _ _ none =>
    rw [Statement.simplify, defineFunctions_simpleConditional]
    exact .pure rfl
  | .conditional _ _ (some _) =>
    rw [Statement.simplify, defineFunctions_simpleConditional]
    exact .pure rfl
  | .loop _ _ =>
    unfold Statement.simplify simpleLoop
    split <;> exact .pure rfl
  | .variable .. | .returnNothing | .returnValue _ | .block _ | .expression _ => exact .pure rfl

theorem defineFunctions_same (tidy : TidyBody direct body) (scope : Scope) :
    Same (defineFunctions scope (simplify body)) (defineFunctions scope body) := by
  induction body with
  | nil => exact .pure rfl
  | cons first rest ih =>
    rw [simplify, defineFunctions_append, defineFunctions_cons]
    exact (first.defineFunctions_same tidy.1 scope).andThen fun _ => ih tidy.2

theorem openBlock_same (tidy : TidyBody direct body) (scope : Scope) :
    Same (openBlock scope (simplify body)) (openBlock scope body) := by
  rw [openBlock, filterMap_binding?_simplify]
  apply (declare_same scope _).andThen
  exact fun inner => (defineFunctions_same tidy inner).andThen fun _ => .pure rfl

theorem openBody_same (tidy : TidyBody true body) (scope : Scope) (parameters : List String) :
    Same (openBody scope parameters (simplify body)) (openBody scope parameters body) := by
  rw [openBody, hoistedNames_simplify tidy]
  exact (declare_same scope _).andThen fun inner => openBlock_same tidy inner

theorem executeAll_append (machine : Machine) (scope : Scope) (first rest : List Statement) :
    executeAll machine scope (first ++ rest) =
      (do
        match ← executeAll machine scope first with
        | .normal => executeAll machine scope rest
        | .returned value => return .returned value) := by
  induction first with
  | nil => rfl
  | cons statement others ih =>
    rw [List.cons_append, executeAll, executeAll, ih, bind_assoc]
    congr 1
    funext completion
    cases completion <;> rfl

theorem executeAll_singleton (machine : Machine) (scope : Scope) (statement : Statement) :
    executeAll machine scope [statement] = statement.execute machine scope := by
  have kept : ∀ completion : Completion,
      (match completion with
        | .normal => executeAll machine scope []
        | .returned value => pure (.returned value)) =
        (pure completion : Evaluation Completion) := by
    intro completion
    cases completion <;> rfl
  exact (congrArg _ (funext kept)).trans (bind_pure _)

theorem executeAll_splice (machine : Machine) (scope : Scope) (body : List Statement) :
    executeAll machine scope (splice body) =
      (do
        let inner ← openBlock scope body
        executeAll machine inner body) := by
  have bindings := filterMap_binding?_splice body
  have functions := defineFunctions_splice scope body
  rw [splice] at bindings functions ⊢
  split at bindings
  · rw [if_pos ‹_›, executeAll_singleton]
    rfl
  · rw [if_neg ‹_›] at functions ⊢
    rw [openBlock, bindings]
    show _ = (do
      defineFunctions scope body
      pure scope) >>= fun inner => executeAll machine inner body
    rw [functions]
    rfl

theorem executeAll_simpleConditional (machine : Machine) (scope : Scope) (condition : Expression)
    (thenBody : List Statement) (elseBody : Option (List Statement)) :
    executeAll machine scope (simpleConditional condition thenBody elseBody) =
      (Statement.conditional condition thenBody elseBody).execute machine scope := by
  unfold simpleConditional
  split
  · rw [executeAll_splice]
    cases elseBody <;> rfl
  · cases elseBody with
    | none => rfl
    | some elseBody => exact executeAll_splice machine scope elseBody
  · exact executeAll_singleton machine scope _

theorem executeAll_simpleLoop (machine : Machine) (scope : Scope) (condition : Expression)
    (body : List Statement) :
    executeAll machine scope (simpleLoop condition body) =
      (Statement.loop condition body).execute machine scope := by
  unfold simpleLoop
  split
  · rw [Statement.execute]
    cases machine.bound <;> rfl
  · exact executeAll_singleton machine scope _

theorem iterate_same {simplerCondition condition : Evaluation Value}
    {simplerBody body : Evaluation Completion} (conditions : Same simplerCondition condition)
    (bodies : Same simplerBody body) (count : Nat) :
    Same (iterate simplerCondition simplerBody count) (iterate condition body count) := by
  induction count with
  | zero =>
    apply conditions.andThen
    intro value
    split
    · exact .exhaust _
    · exact .pure rfl
  | succ count ih =>
    apply conditions.andThen
    intro value
    split
    · apply bodies.andThen
      intro completion
      cases completion with
      | normal => exact ih
      | returned value => exact .pure rfl
    · exact .pure rfl

mutual

theorem Expression.evaluate_same (respects : machine.Respects) (scope : Scope) :
    (expression : Expression) → expression.Tidy →
      Same (expression.simplify.evaluate machine scope) (expression.evaluate machine scope)
  | .number _, _ | .string _, _ | .boolean _, _ | .undefined, _ => .pure rfl
  | .identifier name, _ => Machine.lookup_same machine scope name
  | .binary operator left right, tidy => by
      have lefts := left.evaluate_same respects scope tidy.1
      have rights := right.evaluate_same respects scope tidy.2
      rw [Expression.simplify, evaluate_simpleBinary]
      by_cases isAnd : operator = .and
      · cases isAnd
        apply lefts.andThen
        intro value
        split
        · exact rights
        · exact .pure rfl
      by_cases isOr : operator = .or
      · cases isOr
        apply lefts.andThen
        intro value
        split
        · exact .pure rfl
        · exact rights
      rw [evaluate_binary _ _ _ _ isAnd isOr, evaluate_binary _ _ _ _ isAnd isOr]
      apply lefts.andThen
      exact fun _ => rights.andThen fun _ => Machine.operate_same respects operator _ _
  | .unary operator operand, tidy => by
      rw [Expression.simplify, evaluate_simpleUnary]
      apply (operand.evaluate_same respects scope tidy).andThen
      exact fun value => Machine.operateUnary_same respects operator value
  | .call callee arguments, tidy => by
      apply (callee.evaluate_same respects scope tidy.1).andThen
      intro function
      apply (evaluateArguments_same respects scope arguments tidy.2).andThen
      exact fun values => Machine.call_same respects function values
  | .member object property, tidy => by
      apply (object.evaluate_same respects scope tidy).andThen
      exact fun owner => Machine.member_same respects owner property
  | .function _, tidy => newFunction_same tidy scope
  | .object properties, tidy => by
      have start : TidySlots [] := fun _ _ member => by cases member
      apply Simulates.bind (evaluateProperties_same respects scope start properties tidy)
      rintro _ slots ⟨rfl, slotsTidy⟩
      have tidyObject : Entity.Tidy ⟨none, slots⟩ := ⟨(fun _ _ found => by cases found), slotsTidy⟩
      exact newObject_same tidyObject
  | .assignment target value, tidy => by
      apply (Machine.place_same respects scope target).andThen
      intro place
      apply (value.evaluate_same respects scope tidy).andThen
      intro result
      exact (Machine.put_same respects scope place result).andThen fun _ => .pure rfl

theorem evaluateArguments_same (respects : machine.Respects) (scope : Scope) :
    (arguments : List Expression) → TidyExpressions arguments →
      Same (evaluateArguments machine scope (simplifyExpressions arguments))
        (evaluateArguments machine scope arguments)
  | [], _ => .pure rfl
  | first :: rest, tidy => by
      apply (first.evaluate_same respects scope tidy.1).andThen
      intro value
      exact (evaluateArguments_same respects scope rest tidy.2).andThen fun _ => .pure rfl

theorem evaluateProperties_same
    (respects : machine.Respects)
    (scope : Scope)
    {slots : List (String × Slot)}
    (slotsTidy : TidySlots slots) :
    (properties : List Property) → TidyProperties properties →
      Simulates (fun simpler original => simpler = simplifySlots original ∧ TidySlots original)
        (evaluateProperties machine scope (simplifySlots slots) (simplifyProperties properties))
        (evaluateProperties machine scope slots properties)
  | [], _ => .pure ⟨rfl, slotsTidy⟩
  | .value key value :: rest, tidy => by
      apply (value.evaluate_same respects scope tidy.1).andThen
      intro result
      have added : TidySlots (withSlot key (.value result) slots) :=
        slotsTidy.withSlot (show Slot.Tidy (.value result) from trivial)
      have others := evaluateProperties_same respects scope added rest tidy.2
      rwa [← withSlot_simplify] at others
  | .getter key value :: rest, tidy => by
      have slotTidy : Slot.Tidy (.getter (.make none [] [.returnValue value]) scope) :=
        ⟨tidy.1, trivial⟩
      have others := evaluateProperties_same respects scope
        (slotsTidy.withSlot slotTidy : TidySlots (withSlot key _ slots)) rest tidy.2
      rwa [← withSlot_simplify] at others

end

mutual

theorem Statement.execute_same (respects : machine.Respects) (scope : Scope) {direct : Bool} :
    (statement : Statement) → statement.Tidy direct →
      Same (executeAll machine scope statement.simplify) (statement.execute machine scope)
  | .variable kind name initial, tidy => by
      rw [Statement.simplify, executeAll_singleton]
      have initials := initial.evaluate_same respects scope tidy.2
      cases kind with
      | hoisted =>
        apply initials.andThen
        intro value
        exact (Machine.assign_same respects scope name value).andThen fun _ => .pure rfl
      | _ =>
        apply initials.andThen
        intro value
        cases scope.lookup name with
        | none => exact .throw _ _
        | some address => exact (initialise_same address value).andThen fun _ => .pure rfl
  | .function _, _ => .pure rfl
  | .returnNothing, _ => .pure rfl
  | .returnValue value, tidy => by
      rw [Statement.simplify, executeAll_singleton]
      exact (value.evaluate_same respects scope tidy).andThen fun _ => .pure rfl
  | .conditional condition thenBody none, tidy => by
      rw [Statement.simplify, executeAll_simpleConditional]
      apply (condition.evaluate_same respects scope tidy.1).andThen
      intro value
      split
      · exact block_same respects scope thenBody tidy.2
      · exact .pure rfl
  | .conditional condition thenBody (some elseBody), tidy => by
      rw [Statement.simplify, executeAll_simpleConditional]
      apply (condition.evaluate_same respects scope tidy.1).andThen
      intro value
      split
      · exact block_same respects scope thenBody tidy.2.1
      · exact block_same respects scope elseBody tidy.2.2
  | .loop condition body, tidy => by
      rw [Statement.simplify, executeAll_simpleLoop]
      exact iterate_same (condition.evaluate_same respects scope tidy.1)
        (block_same respects scope body tidy.2) machine.bound
  | .block body, tidy => by
      rw [Statement.simplify, executeAll_singleton]
      exact block_same respects scope body tidy
  | .expression expression, tidy => by
      rw [Statement.simplify, executeAll_singleton]
      exact (expression.evaluate_same respects scope tidy).andThen fun _ => .pure rfl

theorem executeAll_same (respects : machine.Respects) (scope : Scope) {direct : Bool} :
    (body : List Statement) → TidyBody direct body →
      Same (executeAll machine scope (simplify body)) (executeAll machine scope body)
  | [], _ => .pure rfl
  | first :: rest, tidy => by
      rw [simplify, executeAll_append]
      apply (first.execute_same respects scope tidy.1).andThen
      intro completion
      cases completion with
      | normal => exact executeAll_same respects scope rest tidy.2
      | returned value => exact .pure rfl

theorem block_same (respects : machine.Respects) (scope : Scope) {direct : Bool}
    (body : List Statement) (tidy : TidyBody direct body) :
      Same (do
          let inner ← openBlock scope (simplify body)
          executeAll machine inner (simplify body))
        (do
          let inner ← openBlock scope body
          executeAll machine inner body) :=
  (openBlock_same tidy scope).andThen fun inner => executeAll_same respects inner body tidy

end

theorem Ending.Matches.eq {α : Type} {simpler original : Ending α}
    (matched : simpler.Matches Eq original) : simpler = original := by
  cases matched with
  | done results => rw [results]
  | thrown error => rfl
  | exhausted => rfl

theorem Function.call_same (respects : machine.Respects) (scope : Scope) (arguments : List Value)
    (tidy : function.Tidy) :
    Same (function.simplify.call machine scope arguments)
      (function.call machine scope arguments) := by
  obtain ⟨name, parameters, body⟩ := function
  apply (declare_same scope (bindArguments parameters arguments)).andThen
  intro around
  apply (openBody_same tidy around parameters).andThen
  intro inner
  apply (executeAll_same respects inner body tidy).andThen
  intro completion
  cases completion <;> exact .pure rfl

theorem Machine.upTo_respects (host : Host) (fuel : Nat) : (Machine.upTo host fuel).Respects := by
  intro function scope arguments tidy
  induction fuel generalizing function scope arguments with
  | zero => exact .exhaust _
  | succ fuel ih => exact function.call_same ih scope arguments tidy

/--
A simpler script does what the script does: with any host and any fuel it asks
the host the same questions in the same order, and it ends in the same way, be it
with a result, with an error or without enough fuel.
-/
theorem run_simplify
    (host : Host)
    (fuel : Nat)
    (program : List Statement)
    (tidy : TidyBody true program) :
    run host fuel (simplify program) = run host fuel program := by
  have respects := Machine.upTo_respects host fuel
  have same := (openBody_same tidy [] []).andThen fun scope =>
    executeAll_same respects scope program tidy
  obtain ⟨ending, memory, -⟩ := same ⟨[], [], []⟩ fun _ member => by cases member
  have histories := congrArg Memory.history memory
  exact Prod.ext ending.eq histories

/--
A script with a function whose branch is decided, a loop that never runs and a
condition that can be worked out.
-/
def decided : List Statement :=
  [.variable .constant "three" (.binary .add (.number ⟨0x3ff0000000000000⟩)
      (.number ⟨0x4000000000000000⟩)),
    .function (.make (some "show") ["n"]
      [.conditional (.boolean true)
        [.variable .constant "twice" (.binary .multiply (.identifier "n")
            (.number ⟨0x4000000000000000⟩)),
          .expression (.call (.identifier "print") [.identifier "twice"]),
          .returnValue (.identifier "twice")]
        (some [.returnNothing])]),
    .loop (.unary .not (.boolean true)) [.expression (.call (.identifier "lost") [])],
    .conditional (.binary .or (.boolean false) (.boolean true))
      [.expression (.call (.identifier "show") [.identifier "three"])] none,
    .variable .hoisted "last" (.call (.identifier "lost") [])]

/-- A host that has `print` and answers every question in the same way. -/
def Host.printing : Host where
  global _ name := if name = "print" then some (.foreign 0) else none
  reply _ := .give .undefined
  numberOf _ := .zero
  textOf _ := ""
  precedes _ _ := false

theorem run_simplify_decided :
    TidyBody true decided ∧
      run .printing 4 (simplify decided) = run .printing 4 decided := by
  have tidy : TidyBody true decided := by
    simp [decided, TidyBody, Statement.Tidy, Expression.Tidy, TidyExpressions, Function.Tidy]
  exact ⟨tidy, run_simplify .printing 4 decided tidy⟩

end Script

end Toolshed
