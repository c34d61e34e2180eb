import Toolshed.Proofs.Typing.Inversion
import Toolshed.Proofs.Typing.NoUnknown

namespace Toolshed

/-!
# Functions return what they promise

Here conditions are not looked at: a branch may go either way, and a loop may go
round any number of times.
-/

/-- How a run of some code ends. -/
inductive Completion where
  /-- It comes to the end of the code. -/
  | falls
  | returns (value : Option Expression)

mutual

inductive Block.Runs : Block → Completion → Prop where
  | statements :
      Statement.RunAll statements completion →
      Block.Runs (.statements node statements) completion

/-- Statements run one after another, up to the first one that returns. -/
inductive Statement.RunAll : List Statement → Completion → Prop where
  | nil : Statement.RunAll [] .falls
  | next :
      Statement.Runs first .falls →
      Statement.RunAll rest completion →
      Statement.RunAll (first :: rest) completion
  | returns :
      Statement.Runs first (.returns value) →
      Statement.RunAll (first :: rest) (.returns value)

inductive Statement.Runs : Statement → Completion → Prop where
  | declaration : Statement.Runs (.declaration declared) .falls
  | expression : Statement.Runs (.expression node value) .falls
  | assignment : Statement.Runs (.assignment node target value) .falls
  | returnNothing : Statement.Runs (.returnNothing node) (.returns none)
  | returnValue : Statement.Runs (.returnValue node value) (.returns (some value))
  | holds :
      Block.Runs thenBlock completion →
      Statement.Runs (.conditional node test thenBlock otherwise) completion
  | fails :
      ElseBranch.Runs otherwise completion →
      Statement.Runs (.conditional node test thenBlock otherwise) completion
  | leave : Statement.Runs (.loop node test body) .falls
  | again :
      Block.Runs body .falls →
      Statement.Runs (.loop node test body) completion →
      Statement.Runs (.loop node test body) completion
  | returnInside :
      Block.Runs body (.returns value) →
      Statement.Runs (.loop node test body) (.returns value)

inductive ElseBranch.Runs : ElseBranch → Completion → Prop where
  | nothing : ElseBranch.Runs .nothing .falls
  | block : Block.Runs block completion → ElseBranch.Runs (.block block) completion
  | statement :
      Statement.Runs statement completion →
      ElseBranch.Runs (.statement statement) completion

end

mutual

theorem Block.not_falls : (block : Block) → block.returns = true → ¬block.Runs .falls
  | .statements _ statements, returns, .statements runs =>
    Statement.not_allFall statements returns runs
  | .stray _, _, runs => by cases runs

theorem Statement.not_allFall : (statements : List Statement) →
    Statement.lastReturns statements = true → ¬Statement.RunAll statements .falls
  | [], returns, _ => by simp [Statement.lastReturns] at returns
  | [only], returns, .next runs _ => only.not_falls returns runs
  | _ :: second :: rest, returns, .next _ runs =>
    Statement.not_allFall (second :: rest) returns runs

theorem Statement.not_falls : (statement : Statement) → statement.returns = true →
    ¬statement.Runs .falls
  | .returnNothing _, _, runs => by cases runs
  | .returnValue _ _, _, runs => by cases runs
  | .conditional _ _ thenBlock otherwise, returns, runs => by
    simp only [Statement.returns, Bool.and_eq_true] at returns
    cases runs with
    | holds runs => exact thenBlock.not_falls returns.1 runs
    | fails runs => exact otherwise.not_falls returns.2 runs
  | .declaration _, returns, _ | .expression _ _, returns, _ | .loop _ _ _, returns, _
  | .assignment _ _ _, returns, _ | .stray _, returns, _ => by simp [Statement.returns] at returns

theorem ElseBranch.not_falls : (branch : ElseBranch) → branch.returns = true →
    ¬branch.Runs .falls
  | .nothing, returns, _ => by simp [ElseBranch.returns] at returns
  | .block block, returns, .block runs => block.not_falls returns runs
  | .statement statement, returns, .statement runs => statement.not_falls returns runs

end

/-- A part of code that promises a result, or that gives one. -/
inductive Part where
  /-- A function, method or lambda with a block, and the written type of its result. -/
  | function (result : Option TypeExpression) (body : Block)
  /-- A `return` and its value, in a function with a written result. -/
  | returned (result : Option TypeExpression) (value : Option Expression)

mutual

def Expression.parts : Expression → List Part
  | .binary _ _ left right => left.parts ++ right.parts
  | .unary _ _ operand => operand.parts
  | .call _ callee arguments => callee.parts ++ Expression.partsOfAll arguments
  | .member _ object _ => object.parts
  | .lambda _ _ result body => body.parts result
  | .number _ _ | .string _ _ | .boolean _ _ | .unit _ | .identifier _ _ | .stray _ => []

def Expression.partsOfAll : List Expression → List Part
  | [] => []
  | first :: rest => first.parts ++ Expression.partsOfAll rest

def LambdaBody.parts (result : Option TypeExpression) : LambdaBody → List Part
  | .expression body => body.parts
  | .block body => .function result body :: body.parts result

def Block.parts (result : Option TypeExpression) : Block → List Part
  | .statements _ statements => Statement.partsOfAll result statements
  | .stray _ => []

def Statement.partsOfAll (result : Option TypeExpression) : List Statement → List Part
  | [] => []
  | first :: rest => first.parts result ++ Statement.partsOfAll result rest

def Statement.parts (result : Option TypeExpression) : Statement → List Part
  | .declaration declared => declared.parts
  | .expression _ value => value.parts
  | .returnNothing _ => [.returned result none]
  | .returnValue _ value => .returned result (some value) :: value.parts
  | .conditional _ test thenBlock otherwise =>
    test.parts ++ (thenBlock.parts result ++ otherwise.parts result)
  | .loop _ test body => test.parts ++ body.parts result
  | .assignment _ _ value => value.parts
  | .stray _ => []

def ElseBranch.parts (result : Option TypeExpression) : ElseBranch → List Part
  | .nothing => []
  | .block block => block.parts result
  | .statement statement => statement.parts result

def Declaration.parts : Declaration → List Part
  | .value _ _ _ _ initial => initial.parts
  | .function _ _ _ result body => .function result body :: body.parts result
  | .classType _ _ _ members => Declaration.partsOfAll members
  | .stray _ => []

def Declaration.partsOfAll : List Declaration → List Part
  | [] => []
  | first :: rest => first.parts ++ Declaration.partsOfAll rest

end

/-- The type of a declared result, which is the unit type if none is written. -/
def ResultDenotes
    (final : CheckState)
    (result : Option TypeExpression)
    (type : TypeId) : Prop :=
  ∃ declared,
    Option.Rel (TypeExpression.Denotes final) result declared ∧ declared.getD .unit = type

theorem ResultDenotes.unknown_not {final : CheckState} {result : Option TypeExpression}
    {type : TypeId} (denotes : ResultDenotes final result type) : type ≠ .unknown := by
  obtain ⟨declared, denotes, rfl⟩ := denotes
  cases denotes with
  | none => decide
  | some denotes => exact denotes.2

/-- What a `return` gives is noted to have a type, and is missing only for the unit type. -/
def GivesType (types : Table TypeId) (expected : TypeId) : Option Expression → Prop
  | none => expected = .unit
  | some value => types.get? value.id = some expected

/--
A part of accepted code. No run comes to the end of a function, unless it gives a
unit value; and a `return` gives a value of the declared type.
-/
def Part.Accepted (final : CheckState) : Part → Prop
  | .function result body =>
    ∃ type, ResultDenotes final result type ∧ (type ≠ .unit → ¬body.Runs .falls)
  | .returned result value =>
    ∃ type, ResultDenotes final result type ∧ GivesType final.types type value

def Context.Returns
    (final : CheckState)
    (result : Option TypeExpression)
    (context : Context) : Prop :=
  ∃ type, ResultDenotes final result type ∧ context.returnType = some type

namespace Context

variable {final : CheckState} {context : Context} {result : Option TypeExpression}

theorem returnType_define (context : Context) (name : String) (binding : Binding) :
    (context.define name binding).2.returnType = context.returnType := by
  have widens := Widens.define context name binding
  simp only [returnType, scopes, Scope.returnTypeIn, widens.outer, widens.kind]

theorem returnType_bindParameters (parameters : List Parameter) (types : List TypeId) :
    (context.bindParameters parameters types).returnType = context.returnType := by
  induction parameters generalizing context types with
  | nil => simp [bindParameters]
  | cons first rest ih =>
    cases types with
    | nil => cases first <;> rfl
    | cons type types =>
      cases first with
      | named id name written => exact (ih types).trans (returnType_define _ _ _)
      | stray id => exact ih types

theorem Returns.enter (parameters : List Parameter) (types : List TypeId)
    {declared : Option TypeId}
    (denotes : Option.Rel (TypeExpression.Denotes final) result declared) :
    (context.enter parameters types (declared.getD .unit)).Returns final result :=
  ⟨_, ⟨declared, denotes, rfl⟩, returnType_bindParameters parameters types⟩

variable (returns : context.Returns final result)
include returns

theorem Returns.push :
    (context.push .block).Returns final result :=
  returns

theorem Returns.declaresFunctions {statements : List Statement} {entered : Context}
    (declares : DeclaresFunctions final context statements entered) :
    entered.Returns final result := by
  induction declares with
  | nil => exact returns
  | @function before _ _ id name _ _ _ _ _ _ type _ _ defined _ ih =>
    have same := returnType_define before name ⟨some type, .declared .function, some id⟩
    rw [defined] at same
    exact ih (by rwa [Returns, same])
  | other _ _ ih => exact ih returns

theorem Returns.accepted {statement : Statement} {after : Context}
    (accepted : statement.Accepted final context after) : after.Returns final result := by
  cases accepted with
  | @value _ _ id mutable name _ _ _ type _ _ defined =>
    have same := returnType_define context name
      ⟨some type, .declared (.ofMutable mutable), some id⟩
    rw [defined] at same
    rwa [Returns, same]
  | _ => exact returns

end Context

/-- No node has the unknown type. -/
def CheckState.Explicit (final : CheckState) : Prop :=
  ∀ id type, final.types.get? id = some type → type ≠ .unknown

section Parts

variable {final : CheckState} {whole : Context} {result : Option TypeExpression}

theorem Part.accepted_function {declared : Option TypeId} {body : Block}
    (denotes : Option.Rel (TypeExpression.Denotes final) result declared)
    (returned :
      declared.getD .unit = .unit ∨ declared.getD .unit = .unknown ∨ body.returns = true) :
    (Part.function result body).Accepted final := by
  have isResult : ResultDenotes final result (declared.getD .unit) := ⟨declared, denotes, rfl⟩
  refine ⟨_, isResult, fun isNotUnit => body.not_falls ?_⟩
  exact (returned.resolve_left isNotUnit).resolve_left isResult.unknown_not

theorem Part.accepted_returned {context : Context} {value : Option Expression}
    {found expected : TypeId} (returns : context.Returns final result)
    (expects : context.returnType = some expected) (fits : found.fits expected = true)
    (known : found ≠ .unknown) (gives : GivesType final.types found value) :
    (Part.returned result value).Accepted final := by
  obtain ⟨type, denotes, isType⟩ := returns
  obtain rfl := Option.some.inj (isType.symm.trans expects)
  have same : found = type := by simpa [TypeId.fits, known, denotes.unknown_not] using fits
  exact ⟨type, denotes, same ▸ gives⟩

mutual

theorem Expression.HasType.parts (explicit : final.Explicit) (value : Expression)
    {context : Context} {type : TypeId} (typed : value.HasType final context type) :
    ∀ part ∈ value.parts, part.Accepted final := by
  cases value with
  | binary id operator left right =>
    obtain ⟨_, _, typedLeft, typedRight, _⟩ := typed.binary
    exact List.forall_mem_append.mpr
      ⟨Expression.HasType.parts explicit left typedLeft,
        Expression.HasType.parts explicit right typedRight⟩
  | unary id operator operand => exact Expression.HasType.parts explicit operand typed.unary.1
  | call id callee arguments =>
    obtain ⟨_, _, typedCallee, typedArguments, _⟩ := typed.call
    exact List.forall_mem_append.mpr ⟨Expression.HasType.parts explicit callee typedCallee,
      Expression.HaveTypes.parts explicit arguments typedArguments⟩
  | member id object name =>
    obtain ⟨_, typedObject, _⟩ := typed.member
    exact Expression.HasType.parts explicit object typedObject
  | lambda id parameters result body =>
    obtain ⟨_, _, _, denotes, typedBody, _⟩ := typed.lambda
    exact LambdaBody.HasType.parts explicit body denotes.result typedBody
  | _ => simp [Expression.parts]

theorem Expression.HaveTypes.parts (explicit : final.Explicit) (values : List Expression)
    {context : Context} {types : List TypeId}
    (typed : Expression.HaveTypes final context values types) :
    ∀ part ∈ Expression.partsOfAll values, part.Accepted final := by
  cases values with
  | nil => simp [Expression.partsOfAll]
  | cons first rest =>
    obtain ⟨_, _, _, typedFirst, typedRest⟩ := typed.cons_inv
    exact List.forall_mem_append.mpr ⟨Expression.HasType.parts explicit first typedFirst,
      Expression.HaveTypes.parts explicit rest typedRest⟩

theorem LambdaBody.HasType.parts (explicit : final.Explicit) (body : LambdaBody) {context : Context}
    {parameters : List Parameter} {types : List TypeId} {result : Option TypeExpression}
    {declared : Option TypeId} {type : TypeId}
    (denotes : Option.Rel (TypeExpression.Denotes final) result declared)
    (typed : body.HasType final context parameters types declared type) :
    ∀ part ∈ body.parts result, part.Accepted final := by
  cases body with
  | expression body =>
    obtain ⟨_, typedBody, _⟩ := typed.expression
    exact Expression.HasType.parts explicit body typedBody
  | block body =>
    obtain ⟨_, accepted, returned⟩ := typed.block_inv
    exact List.forall_mem_cons.mpr ⟨Part.accepted_function denotes returned,
      Block.Accepted.parts explicit body (.enter _ _ denotes) accepted⟩

theorem Block.Accepted.parts (explicit : final.Explicit) (block : Block)
    {result : Option TypeExpression} {context : Context} (returns : context.Returns final result)
    (accepted : block.Accepted final context) :
    ∀ part ∈ block.parts result, part.Accepted final := by
  cases block with
  | stray id => exact absurd accepted Block.Accepted.not_stray
  | statements id statements =>
    obtain ⟨_, _, declares, accepted⟩ := accepted.statements_inv
    exact Statement.AllAccepted.parts explicit statements (returns.declaresFunctions declares)
      accepted

theorem Statement.AllAccepted.parts (explicit : final.Explicit) (statements : List Statement)
    {result : Option TypeExpression} {context after : Context}
    (returns : context.Returns final result)
    (accepted : Statement.AllAccepted final context statements after) :
    ∀ part ∈ Statement.partsOfAll result statements, part.Accepted final := by
  cases statements with
  | nil => simp [Statement.partsOfAll]
  | cons first rest =>
    obtain ⟨_, acceptedFirst, acceptedRest⟩ := accepted.cons_inv
    exact List.forall_mem_append.mpr ⟨Statement.Accepted.parts explicit first returns acceptedFirst,
      Statement.AllAccepted.parts explicit rest (returns.accepted acceptedFirst) acceptedRest⟩

theorem Statement.Accepted.parts (explicit : final.Explicit) (statement : Statement)
    {result : Option TypeExpression} {context after : Context}
    (returns : context.Returns final result) (accepted : statement.Accepted final context after) :
    ∀ part ∈ statement.parts result, part.Accepted final := by
  cases statement with
  | declaration declared =>
    cases declared with
    | value id mutable name written initial =>
      obtain ⟨_, _, typed, _⟩ := accepted.value_inv
      exact Expression.HasType.parts explicit initial typed
    | function id name parameters result body =>
      obtain ⟨_, _, _, denotes, accepted, returned⟩ := accepted.function_inv
      exact List.forall_mem_cons.mpr ⟨Part.accepted_function denotes.result returned,
        Block.Accepted.parts explicit body (.enter _ _ denotes.result) accepted⟩
    | classType id name parameters members =>
      exact absurd accepted Statement.Accepted.not_classType
    | stray id => exact absurd accepted Statement.Accepted.not_strayDeclaration
  | expression id value =>
    obtain ⟨_, _, typed⟩ := accepted.expression_inv
    exact Expression.HasType.parts explicit value typed
  | returnNothing id =>
    cases accepted with
    | returnNothing expects fits =>
      have accepted : (Part.returned result none).Accepted final :=
        Part.accepted_returned returns expects fits (by decide) rfl
      simpa [Statement.parts] using accepted
  | returnValue id value =>
    obtain ⟨_, _, _, typed, expects, fits⟩ := accepted.returnValue_inv
    refine List.forall_mem_cons.mpr ⟨?_, Expression.HasType.parts explicit value typed⟩
    obtain ⟨_, noted⟩ := typed
    exact Part.accepted_returned returns expects fits (explicit _ _ noted) noted
  | assignment id target value =>
    obtain ⟨_, _, _, _, typed, _⟩ := accepted.assignment_inv
    exact Expression.HasType.parts explicit value typed
  | conditional id test thenBlock otherwise =>
    obtain ⟨_, ⟨_, typed, _⟩, acceptedThen, acceptedElse⟩ := accepted.conditional_inv
    exact List.forall_mem_append.mpr ⟨Expression.HasType.parts explicit test typed,
      List.forall_mem_append.mpr ⟨Block.Accepted.parts explicit thenBlock returns.push acceptedThen,
        ElseBranch.Accepted.parts explicit otherwise returns acceptedElse⟩⟩
  | loop id test body =>
    obtain ⟨_, ⟨_, typed, _⟩, acceptedBody⟩ := accepted.loop_inv
    exact List.forall_mem_append.mpr ⟨Expression.HasType.parts explicit test typed,
      Block.Accepted.parts explicit body returns.push acceptedBody⟩
  | stray id => exact absurd accepted Statement.Accepted.not_stray

theorem ElseBranch.Accepted.parts (explicit : final.Explicit) (branch : ElseBranch)
    {result : Option TypeExpression} {context : Context} (returns : context.Returns final result)
    (accepted : branch.Accepted final context) :
    ∀ part ∈ branch.parts result, part.Accepted final := by
  cases branch with
  | nothing => simp [ElseBranch.parts]
  | block block => exact Block.Accepted.parts explicit block returns.push accepted.block_inv
  | statement nested =>
    exact Statement.Accepted.parts explicit nested returns accepted.statement_inv

end

variable (explicit : final.Explicit)
include explicit

theorem ValueTyped.parts {written : Option TypeExpression}
    {initial : Expression} {type : TypeId} (typed : ValueTyped final whole written initial type) :
    ∀ part ∈ initial.parts, part.Accepted final := by
  obtain ⟨_, _, _, hasType, _⟩ := typed
  exact Expression.HasType.parts explicit initial hasType

theorem FunctionAccepted.parts {id : NodeId} {name : String}
    {parameters : List Parameter} {body : Block}
    (accepted : FunctionAccepted final whole parameters result body) :
    ∀ part ∈ (Declaration.function id name parameters result body).parts,
      part.Accepted final := by
  obtain ⟨types, declared, denotes, accepted, returned⟩ := accepted
  exact List.forall_mem_cons.mpr ⟨Part.accepted_function denotes.result returned,
    Block.Accepted.parts explicit body (.enter _ _ denotes.result) accepted⟩

theorem members_parts {members : List Declaration}
    {entries : List Member} (typed : List.Forall₂ (TypedEntry final whole) members entries)
    (accepted : ∀ member ∈ members, member.BodyAccepted final whole) :
    ∀ part ∈ Declaration.partsOfAll members, part.Accepted final := by
  induction typed with
  | nil => simp [Declaration.partsOfAll]
  | @cons first _ _ _ typedFirst _ ih =>
    obtain ⟨acceptedFirst, acceptedRest⟩ := List.forall_mem_cons.mp accepted
    refine List.forall_mem_append.mpr ⟨?_, ih acceptedRest⟩
    cases first with
    | value id mutable name written initial =>
      obtain ⟨_, _, typedFirst⟩ := typedFirst
      exact typedFirst.parts explicit
    | function id name parameters result body => exact acceptedFirst.parts explicit
    | classType id name parameters members => exact typedFirst.elim
    | stray id => exact typedFirst.elim

theorem Declaration.Typed.parts {declaration : Declaration}
    (typed : declaration.Typed final whole) : ∀ part ∈ declaration.parts, part.Accepted final := by
  cases declaration with
  | value id mutable name written initial =>
    obtain ⟨_, _, typed⟩ := typed
    exact typed.parts explicit
  | function id name parameters result body =>
    obtain ⟨_, _, _, accepted⟩ := typed
    exact accepted.parts explicit
  | classType id name parameters members =>
    obtain ⟨_, _, _, _, _, _, isClass, accepted⟩ := typed
    obtain ⟨_, _, _, _, _, entries, _⟩ := isClass.entries
    exact members_parts explicit entries accepted
  | stray id => exact typed.elim

theorem Declaration.parts_of_typed {declarations : List Declaration}
    (typed : ∀ declaration ∈ declarations, declaration.Typed final whole) :
    ∀ part ∈ Declaration.partsOfAll declarations, part.Accepted final := by
  induction declarations with
  | nil => simp [Declaration.partsOfAll]
  | cons first rest ih =>
    obtain ⟨typedFirst, typedRest⟩ := List.forall_mem_cons.mp typed
    exact List.forall_mem_append.mpr ⟨typedFirst.parts explicit, ih typedRest⟩

end Parts

/--
If no fault is found in a module that imports interfaces without unknown parts,
then every function, method and lambda with a block keeps its result. If a type
other than the unit type is written, no run of the body comes to its end, and
every `return` in it gives a value of that type; if not, every `return` gives
nothing or a unit value.
-/
theorem SyntaxTree.check_returns
    {tokens : List Token}
    {tree : SyntaxTree}
    {registry : Registry}
    {interfaces : Interfaces}
    (path : ModulePath)
    (profile : Profile)
    (sound : registry.Sound)
    (continues : (profile.seed .initial).1.Continues registry)
    (faultless : SyntaxTree.parse tokens = ⟨tree, []⟩)
    (imports :
      ∀ entry ∈ tree.sourceFile.imports,
        ∃ interface,
          interfaces.lookup entry.path = some interface ∧ registry.Free interface)
    (success :
      (tree.check path (profile.seed .initial).2 registry interfaces).success = true) :
    let final := tree.checkEnd path (profile.seed .initial).2 registry interfaces
    let parts := Declaration.partsOfAll tree.sourceFile.declarations
    (∀ result body,
      .function result body ∈ parts →
      ∃ type, ResultDenotes final result type ∧ (type ≠ .unit → ¬body.Runs .falls)) ∧
    ∀ result value,
      .returned result value ∈ parts →
      ∃ type, ResultDenotes final result type ∧ GivesType final.types type value := by
  have proper : (SyntaxTree.parse tokens).tree.Proper fun _ => True :=
    SyntaxTree.parse_proper fun _ _ _ => trivial
  rw [faultless] at proper
  have explicit := proper.explicit_check sound continues imports success
  have accepted := Declaration.parts_of_typed
    (fun id type isType => (explicit.types id type isType).1)
    (proper.check_typed sound success).declarations
  exact ⟨fun result body isThere => accepted _ isThere,
    fun result value isThere => accepted _ isThere⟩

def branchesText : String :=
  "fun f(b: Boolean): Number \x7b\n  if b \x7b\n    return 1\n  \x7d else \x7b\n" ++
    "    return 2\n  \x7d\n\x7d\n"

def SyntaxTree.branches : SyntaxTree :=
  (SyntaxTree.parse (Token.scan branchesText).tokens).tree

def Part.result? : Part → Option TypeExpression
  | .function result _ => result
  | .returned _ _ => none

theorem SyntaxTree.check_returns_branches :
    ∃ result body,
      .function (some result) body ∈
          Declaration.partsOfAll SyntaxTree.branches.sourceFile.declarations ∧
        ¬body.Runs .falls := by
  have computed :
      (SyntaxTree.parse (Token.scan branchesText).tokens).diagnostics = [] ∧
        SyntaxTree.branches.sourceFile.imports = [] ∧
        (SyntaxTree.branches.check ⟨["a"]⟩ (Profile.browser.seed .initial).2
          (Profile.browser.seed .initial).1 []).success = true ∧
        (Declaration.partsOfAll SyntaxTree.branches.sourceFile.declarations).any (fun part =>
          (part.result?.bind fun written =>
            (SyntaxTree.branches.checkEnd ⟨["a"]⟩ (Profile.browser.seed .initial).2
              (Profile.browser.seed .initial).1 []).denotations.get? written.id) =
            some TypeId.number) = true := by
    decide +kernel
  obtain ⟨faultless, noImports, success, isThere⟩ := computed
  have parsed : SyntaxTree.parse (Token.scan branchesText).tokens = ⟨SyntaxTree.branches, []⟩ := by
    rw [← faultless]
    rfl
  have returns := SyntaxTree.check_returns ⟨["a"]⟩ .browser
    (Profile.sound_seed .browser Registry.sound_initial) (.refl _) parsed (by simp [noImports])
    success
  obtain ⟨part, isPart, isNumber⟩ := List.any_eq_true.mp isThere
  cases part with
  | returned result value => simp [Part.result?] at isNumber
  | function result body =>
    cases result with
    | none => simp [Part.result?] at isNumber
    | some written =>
      obtain ⟨type, ⟨_, denotes, rfl⟩, runs⟩ := returns.1 _ _ isPart
      cases denotes with
      | some denotes =>
        have isType : _ = TypeId.number :=
          Option.some.inj (denotes.1.symm.trans (of_decide_eq_true isNumber))
        exact ⟨written, body, isPart, runs (by rw [isType]; decide)⟩

end Toolshed
