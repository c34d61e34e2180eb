import Toolshed.Double.Arithmetic
import Toolshed.Script.Basic

namespace Toolshed

/-!
# What scripts do

An evaluator of scripts. Variables live in cells, and objects and functions at
addresses. All else is asked of a host, which answers by all that has happened so
far and may first call functions of the script and read and write members of its
objects. Fuel bounds how deep calls nest, how often a loop runs and how often the
host comes back.
-/

namespace Script

/-- A value of a running script. -/
inductive Value where
  | number (value : Double)
  | string (text : String)
  | boolean (value : Bool)
  | undefined
  | null
  | object (address : Nat)
  | foreign (handle : Nat)
  deriving Repr, DecidableEq

def Value.isObject : Value → Bool
  | .object _ | .foreign _ => true
  | _ => false

/-- Why a script stops early. -/
inductive Thrown where
  | unbound (name : String)
  | uninitialised (name : String)
  | constant (name : String)
  | noFunction
  | noMember (key : String)
  | noPrimitive
  | host (value : Value)
  deriving Repr, DecidableEq

abbrev Scope :=
  List (String × Nat)

/-- A variable; it has no value before its declaration has run. -/
structure Cell where
  value : Option Value
  constant : Bool
  deriving Repr, DecidableEq

/-- A member of an object. -/
inductive Slot where
  | value (value : Value)
  | getter (function : Function) (scope : Scope)

/-- An object with its members, and with code if it is a function. -/
structure Entity where
  code : Option (Function × Scope)
  slots : List (String × Slot)

def withSlot (key : String) (slot : Slot) : List (String × Slot) → List (String × Slot)
  | [] => [(key, slot)]
  | (other, old) :: rest =>
    if other = key then (key, slot) :: rest else (other, old) :: withSlot key slot rest

/-- Set a member of an object; a getter stays what it is. -/
def Entity.set (key : String) (value : Value) (entity : Entity) : Entity :=
  match entity.slots.lookup key with
  | some (.getter _ _) => entity
  | _ => { entity with slots := withSlot key (.value value) entity.slots }

/-- What the host is asked. -/
inductive Question where
  | call (handle : Nat) (arguments : List Value)
  | member (owner : Value) (key : String)
  | assign (owner : Value) (key : String) (value : Value)
  | assignGlobal (name : String) (value : Value)
  | convert (value : Value)
  deriving Repr, DecidableEq

/-- How something that the host has the script do ends. -/
inductive Attempt where
  | value (value : Value)
  | thrown (error : Thrown)
  deriving Repr, DecidableEq

/-- What happens between a script and its host. -/
inductive Event where
  | asked (question : Question)
  | attempted (attempt : Attempt)
  deriving Repr, DecidableEq

/-- The variables and objects of a running script, and what has happened so far. -/
structure Memory where
  cells : List Cell
  objects : List Entity
  history : List Event

/-- How an evaluation ends. -/
inductive Ending (α : Type) where
  | done (result : α)
  | thrown (error : Thrown)
  | exhausted
  deriving Repr, DecidableEq

def Evaluation (α : Type) : Type :=
  Memory → Ending α × Memory

namespace Evaluation

variable {α β : Type}

/-- Go on after an ending, unless it stops the script. -/
def goOn (next : α → Evaluation β) : Ending α × Memory → Ending β × Memory
  | (.done result, memory) => next result memory
  | (.thrown error, memory) => (.thrown error, memory)
  | (.exhausted, memory) => (.exhausted, memory)

instance : Monad Evaluation where
  pure result := fun memory => (.done result, memory)
  bind first next := fun memory => goOn next (first memory)

def throw (error : Thrown) : Evaluation α := fun memory =>
  (.thrown error, memory)

def exhaust : Evaluation α := fun memory =>
  (.exhausted, memory)

def attempt (evaluation : Evaluation Value) : Evaluation Attempt := fun memory =>
  match evaluation memory with
  | (.done result, memory) => (.done (.value result), memory)
  | (.thrown error, memory) => (.done (.thrown error), memory)
  | (.exhausted, memory) => (.exhausted, memory)

def newCell (cell : Cell) : Evaluation Nat := fun memory =>
  (.done memory.cells.length, { memory with cells := memory.cells ++ [cell] })

def readCell (name : String) (address : Nat) : Evaluation Value := fun memory =>
  match memory.cells[address]? with
  | some ⟨some value, _⟩ => (.done value, memory)
  | _ => (.thrown (.uninitialised name), memory)

def initialise (address : Nat) (value : Value) : Evaluation Unit := fun memory =>
  (.done (), { memory with
    cells := memory.cells.modify address fun cell => { cell with value := some value } })

def assignCell (name : String) (address : Nat) (value : Value) : Evaluation Unit := fun memory =>
  match memory.cells[address]? with
  | some ⟨some _, false⟩ => initialise address value memory
  | some ⟨some _, true⟩ => (.thrown (.constant name), memory)
  | _ => (.thrown (.uninitialised name), memory)

def newObject (entity : Entity) : Evaluation Value := fun memory =>
  (.done (.object memory.objects.length), { memory with objects := memory.objects ++ [entity] })

def entity (address : Nat) : Evaluation (Option Entity) := fun memory =>
  (.done memory.objects[address]?, memory)

def setSlot (address : Nat) (key : String) (value : Value) : Evaluation Unit := fun memory =>
  (.done (), { memory with objects := memory.objects.modify address (Entity.set key value) })

def note (event : Event) : Evaluation Unit := fun memory =>
  (.done (), { memory with history := memory.history ++ [event] })

def history : Evaluation (List Event) := fun memory =>
  (.done memory.history, memory)

end Evaluation

open Evaluation

/-- What a host does next. -/
inductive Reply where
  | give (value : Value)
  | throw (value : Value)
  | call (address : Nat) (arguments : List Value)
  | read (address : Nat) (key : String)
  | write (address : Nat) (key : String) (value : Value)
  deriving Repr, DecidableEq

/-- All that is outside of a script, by what has happened so far. -/
structure Host where
  global : List Event → String → Option Value
  reply : List Event → Reply
  numberOf : String → Double
  textOf : Double → String
  precedes : String → String → Bool

/-- What an evaluation needs: a host, a way to call functions, and a bound for repetitions. -/
structure Machine where
  host : Host
  invoke : Function → Scope → List Value → Evaluation Value
  bound : Nat

namespace Machine

variable (machine : Machine)

def callObject (address : Nat) (arguments : List Value) : Evaluation Value := do
  match (← entity address).bind Entity.code with
  | some (function, scope) => machine.invoke function scope arguments
  | none => throw .noFunction

def ownMember (address : Nat) (key : String) : Evaluation (Option Value) := do
  match (← entity address).bind fun entity => entity.slots.lookup key with
  | some (.value value) => return some value
  | some (.getter function scope) => return some (← machine.invoke function scope [])
  | none => return none

def converse : (count : Nat) → Evaluation Value
  | 0 => exhaust
  | count + 1 => do
    match machine.host.reply (← history) with
    | .give value => return value
    | .throw value => throw (.host value)
    | .call address arguments =>
      note (.attempted (← attempt (machine.callObject address arguments)))
      converse count
    | .read address key =>
      note (.attempted (← attempt (do return (← machine.ownMember address key).getD .undefined)))
      converse count
    | .write address key value =>
      setSlot address key value
      converse count

def ask (question : Question) : Evaluation Value := do
  note (.asked question)
  machine.converse machine.bound

def call (callee : Value) (arguments : List Value) : Evaluation Value :=
  match callee with
  | .object address => machine.callObject address arguments
  | .foreign handle => machine.ask (.call handle arguments)
  | _ => throw .noFunction

def member (owner : Value) (key : String) : Evaluation Value :=
  match owner with
  | .undefined | .null => throw (.noMember key)
  | .object address => do
    match ← machine.ownMember address key with
    | some value => return value
    | none => machine.ask (.member owner key)
  | _ => machine.ask (.member owner key)

def setMember (owner : Value) (key : String) (value : Value) : Evaluation Unit :=
  match owner with
  | .undefined | .null => throw (.noMember key)
  | .object address => setSlot address key value
  | _ => do
    let _ ← machine.ask (.assign owner key value)

def primitive (value : Value) : Evaluation Value :=
  if value.isObject then do
    let converted ← machine.ask (.convert value)
    if converted.isObject then throw .noPrimitive else return converted
  else
    return value

/-- The value of a name that the script does not declare. -/
def global (name : String) : Evaluation Value := do
  match machine.host.global (← history) name with
  | some value => return value
  | none => throw (.unbound name)

def lookup (scope : Scope) (name : String) : Evaluation Value :=
  match scope.lookup name with
  | some address => readCell name address
  | none => machine.global name

def assign (scope : Scope) (name : String) (value : Value) : Evaluation Unit :=
  match scope.lookup name with
  | some address => assignCell name address value
  | none => do
    let _ ← machine.global name
    let _ ← machine.ask (.assignGlobal name value)

end Machine

def Value.isTruthy : Value → Bool
  | .number value => !value.isNaN && !value.isZero
  | .string text => !text.isEmpty
  | .boolean value => value
  | .undefined | .null => false
  | .object _ | .foreign _ => true

/-- Whether two values are equal without being converted. -/
def Value.isSame : Value → Value → Bool
  | .number left, .number right => left.equal right
  | left, right => left = right

def Value.toNumber (host : Host) : Value → Double
  | .number value => value
  | .string text => host.numberOf text
  | .boolean value => if value then ⟨0x3ff0000000000000⟩ else .zero
  | .null => .zero
  | _ => .invalid

def Value.toText (host : Host) : Value → String
  | .number value => host.textOf value
  | .string text => text
  | .boolean value => if value then "true" else "false"
  | .null => "null"
  | _ => "undefined"

def addPrimitives (host : Host) (left right : Value) : Value :=
  match left, right with
  | .string left, right => .string (left ++ right.toText host)
  | left, .string right => .string (left.toText host ++ right)
  | left, right => .number ((left.toNumber host).add (right.toNumber host))

def comparePrimitives
    (host : Host)
    (texts : String → String → Bool)
    (numbers : Double → Double → Bool)
    (left right : Value) : Value :=
  match left, right with
  | .string left, .string right => .boolean (texts left right)
  | left, right => .boolean (numbers (left.toNumber host) (right.toNumber host))

def operatePrimitives (host : Host) (operator : BinaryOp) (left right : Value) : Value :=
  match operator with
  | .add => addPrimitives host left right
  | .subtract => .number ((left.toNumber host).subtract (right.toNumber host))
  | .multiply => .number ((left.toNumber host).multiply (right.toNumber host))
  | .divide => .number ((left.toNumber host).divide (right.toNumber host))
  | .remainder => .number ((left.toNumber host).remainder (right.toNumber host))
  | .less => comparePrimitives host host.precedes Double.less left right
  | .lessEqual =>
    comparePrimitives host (fun left right => !host.precedes right left) Double.lessEqual left right
  | .greater =>
    comparePrimitives host (fun left right => host.precedes right left)
      (fun left right => right.less left) left right
  | .greaterEqual =>
    comparePrimitives host (fun left right => !host.precedes left right)
      (fun left right => right.lessEqual left) left right
  | .equal | .notEqual | .and | .or => right

def Machine.operate (machine : Machine) (operator : BinaryOp) (left right : Value) :
    Evaluation Value :=
  match operator with
  | .equal => pure (.boolean (left.isSame right))
  | .notEqual => pure (.boolean (!left.isSame right))
  | operator => do
    let left ← machine.primitive left
    let right ← machine.primitive right
    return operatePrimitives machine.host operator left right

def Machine.operateUnary (machine : Machine) (operator : UnaryOp) (operand : Value) :
    Evaluation Value :=
  match operator with
  | .not => pure (.boolean (!operand.isTruthy))
  | .negate => do
    let operand ← machine.primitive operand
    return .number (operand.toNumber machine.host).negate

def declare : Scope → List (String × Cell) → Evaluation Scope
  | scope, [] => pure scope
  | scope, (name, cell) :: rest => do
    let address ← newCell cell
    declare ((name, address) :: scope) rest

/-- The variable of the block that a statement of it declares. -/
def Statement.binding? : Statement → Option (String × Cell)
  | .variable .scoped name _ => some (name, ⟨none, false⟩)
  | .variable .constant name _ => some (name, ⟨none, true⟩)
  | .function (.make (some name) _ _) => some (name, ⟨some .undefined, false⟩)
  | _ => none

def defineFunctions (scope : Scope) : List Statement → Evaluation Unit
  | [] => pure ()
  | .function (.make (some name) parameters body) :: rest => do
    let function ← newObject ⟨some (.make (some name) parameters body, scope), []⟩
    match scope.lookup name with
    | some address => initialise address function
    | none => pure ()
    defineFunctions scope rest
  | _ :: rest => defineFunctions scope rest

def openBlock (scope : Scope) (body : List Statement) : Evaluation Scope := do
  let inner ← declare scope (body.filterMap Statement.binding?)
  defineFunctions inner body
  return inner

mutual

/-- The names that a statement declares in the function around it. -/
def Statement.hoistedNames : Statement → List String
  | .variable .hoisted name _ => [name]
  | .conditional _ thenBody none => hoistedNames thenBody
  | .conditional _ thenBody (some elseBody) => hoistedNames thenBody ++ hoistedNames elseBody
  | .loop _ body => hoistedNames body
  | .block body => hoistedNames body
  | _ => []

/-- The names that statements declare in the function around them. -/
def hoistedNames : List Statement → List String
  | [] => []
  | first :: rest => first.hoistedNames ++ hoistedNames rest

end

def openBody (scope : Scope) (parameters : List String) (body : List Statement) :
    Evaluation Scope := do
  let names := (hoistedNames body).filter fun name => !parameters.contains name
  let inner ← declare scope (names.map fun name => (name, ⟨some .undefined, false⟩))
  openBlock inner body

def bindArguments : List String → List Value → List (String × Cell)
  | [], _ => []
  | parameter :: parameters, [] =>
    (parameter, ⟨some .undefined, false⟩) :: bindArguments parameters []
  | parameter :: parameters, argument :: arguments =>
    (parameter, ⟨some argument, false⟩) :: bindArguments parameters arguments

/-- Make a function; its name is visible inside it. -/
def newFunction (scope : Scope) : Function → Evaluation Value
  | .make none parameters body => newObject ⟨some (.make none parameters body, scope), []⟩
  | .make (some name) parameters body => do
    let address ← newCell ⟨none, true⟩
    let function ←
      newObject ⟨some (.make (some name) parameters body, (name, address) :: scope), []⟩
    initialise address function
    return function

/-- What an assignment changes. -/
inductive Place where
  | name (name : String)
  | member (owner : Value) (key : String)
  deriving Repr, DecidableEq

namespace Machine

variable (machine : Machine)

/-- The member that a path from a value on ends with. -/
def placeFrom (owner : Value) (key : String) : List String → Evaluation Place
  | [] => pure (.member owner key)
  | next :: rest => do
    let inner ← machine.member owner key
    placeFrom inner next rest

def place (scope : Scope) (target : String) : Evaluation Place :=
  match (ModulePath.parse target).segments with
  | first :: second :: rest => do
    let owner ← machine.lookup scope first
    machine.placeFrom owner second rest
  | _ => pure (.name target)

def put (scope : Scope) (place : Place) (value : Value) : Evaluation Unit :=
  match place with
  | .name name => machine.assign scope name value
  | .member owner key => machine.setMember owner key value

end Machine

/-- How statements end. -/
inductive Completion where
  | normal
  | returned (value : Value)
  deriving Repr, DecidableEq

/-- Repeat a body while a condition holds, at most `count` times. -/
def iterate (condition : Evaluation Value) (body : Evaluation Completion) :
    (count : Nat) → Evaluation Completion
  | 0 => do
    if (← condition).isTruthy then exhaust else return .normal
  | count + 1 => do
    if (← condition).isTruthy then
      match ← body with
      | .normal => iterate condition body count
      | .returned value => return .returned value
    else
      return .normal

section

variable (machine : Machine)

mutual

def Expression.evaluate (scope : Scope) : Expression → Evaluation Value
  | .number value => pure (.number value)
  | .string value => pure (.string value)
  | .boolean value => pure (.boolean value)
  | .undefined => pure .undefined
  | .identifier name => machine.lookup scope name
  | .binary .and left right => do
    let value ← left.evaluate scope
    if value.isTruthy then right.evaluate scope else return value
  | .binary .or left right => do
    let value ← left.evaluate scope
    if value.isTruthy then return value else right.evaluate scope
  | .binary operator left right => do
    let left ← left.evaluate scope
    let right ← right.evaluate scope
    machine.operate operator left right
  | .unary operator operand => do
    let operand ← operand.evaluate scope
    machine.operateUnary operator operand
  | .call callee arguments => do
    let callee ← callee.evaluate scope
    let arguments ← evaluateArguments scope arguments
    machine.call callee arguments
  | .member object property => do
    let owner ← object.evaluate scope
    machine.member owner property
  | .function function => newFunction scope function
  | .object properties => do
    let slots ← evaluateProperties scope [] properties
    newObject ⟨none, slots⟩
  | .assignment target value => do
    let place ← machine.place scope target
    let value ← value.evaluate scope
    machine.put scope place value
    return value

def evaluateArguments (scope : Scope) :
    List Expression → Evaluation (List Value)
  | [] => pure []
  | first :: rest => do
    let first ← first.evaluate scope
    let rest ← evaluateArguments scope rest
    return first :: rest

def evaluateProperties (scope : Scope) (slots : List (String × Slot)) :
    List Property → Evaluation (List (String × Slot))
  | [] => pure slots
  | .value key value :: rest => do
    let value ← value.evaluate scope
    evaluateProperties scope (withSlot key (.value value) slots) rest
  | .getter key value :: rest =>
    evaluateProperties scope
      (withSlot key (.getter (.make none [] [.returnValue value]) scope) slots) rest

end

end

section

variable (machine : Machine)

mutual

def Statement.execute (scope : Scope) : Statement → Evaluation Completion
  | .variable .hoisted name initial => do
    let value ← initial.evaluate machine scope
    machine.assign scope name value
    return .normal
  | .variable _ name initial => do
    let value ← initial.evaluate machine scope
    match scope.lookup name with
    | some address => initialise address value
    | none => throw (.unbound name)
    return .normal
  | .function _ => pure .normal
  | .returnNothing => pure (.returned .undefined)
  | .returnValue value => do
    let value ← value.evaluate machine scope
    return .returned value
  | .conditional condition thenBody none => do
    let value ← condition.evaluate machine scope
    if value.isTruthy then
      let inner ← openBlock scope thenBody
      executeAll inner thenBody
    else
      return .normal
  | .conditional condition thenBody (some elseBody) => do
    let value ← condition.evaluate machine scope
    if value.isTruthy then
      let inner ← openBlock scope thenBody
      executeAll inner thenBody
    else
      let inner ← openBlock scope elseBody
      executeAll inner elseBody
  | .loop condition body =>
    iterate (condition.evaluate machine scope)
      (do
        let inner ← openBlock scope body
        executeAll inner body)
      machine.bound
  | .block body => do
    let inner ← openBlock scope body
    executeAll inner body
  | .expression expression => do
    let _ ← expression.evaluate machine scope
    return .normal

def executeAll (scope : Scope) : List Statement → Evaluation Completion
  | [] => pure .normal
  | first :: rest => do
    match ← first.execute scope with
    | .normal => executeAll scope rest
    | .returned value => return .returned value

end

end

def Function.call (machine : Machine) (scope : Scope) (arguments : List Value) :
    Function → Evaluation Value
  | .make _ parameters body => do
    let scope ← declare scope (bindArguments parameters arguments)
    let inner ← openBody scope parameters body
    match ← executeAll machine inner body with
    | .normal => return .undefined
    | .returned value => return value

def Machine.upTo (host : Host) : (fuel : Nat) → Machine
  | 0 => ⟨host, fun _ _ _ => exhaust, 0⟩
  | fuel + 1 =>
    ⟨host, fun function scope arguments => function.call (upTo host fuel) scope arguments,
      fuel + 1⟩

/-- Run a script: how it ends, and what has happened between it and the host. -/
def run (host : Host) (fuel : Nat) (program : List Statement) :
    Ending Completion × List Event :=
  let evaluation := do
    let scope ← openBody [] [] program
    executeAll (Machine.upTo host fuel) scope program
  let (ending, memory) := evaluation ⟨[], [], []⟩
  (ending, memory.history)

end Script

end Toolshed
