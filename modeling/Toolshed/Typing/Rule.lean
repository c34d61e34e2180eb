import Toolshed.Typing.State

namespace Toolshed

/-!
# Typing rules

The type of an expression from the types of its parts. The unknown type passes
every rule in silence.
-/

/--
The result of a binary operator on operands of known types; equality takes any
two of one type.
-/
def BinaryOp.result? (operator : BinaryOp) (left right : TypeId) : Option TypeId :=
  match operator with
  | .add =>
    if left = .number ∧ right = .number then
      some .number
    else if left = .string ∧ right = .string then
      some .string
    else
      none
  | .subtract | .multiply | .divide | .remainder =>
    if left = .number ∧ right = .number then some .number else none
  | .less | .lessEqual | .greater | .greaterEqual =>
    if left = .number ∧ right = .number then some .boolean else none
  | .and | .or =>
    if left = .boolean ∧ right = .boolean then some .boolean else none
  | .equal | .notEqual =>
    if left = right then some .boolean else none

def BinaryOp.fault (operator : BinaryOp) (left right : String) : Fault :=
  match operator with
  | .equal | .notEqual => .incomparable left right
  | _ => .wrongOperands operator left right

def UnaryOp.operandType : UnaryOp → TypeId
  | .negate => .number
  | .not => .boolean

namespace Check

def identifier (id : NodeId) (name : String) : Check TypeId := do
  match ← lookup name with
  | none => failed (.undefinedName name) id
  | some binding =>
    modify fun state =>
      { state with resolutions := state.resolutions.insert id binding.origin.resolution }
    recordUse binding id
    match binding.type with
    | some type => return type
    | none => failed (.pendingType name) id

def binary (id : NodeId) (operator : BinaryOp) (left right : TypeId) : Check TypeId := do
  if left = .unknown ∨ right = .unknown then
    return .unknown
  else
    match operator.result? left right with
    | some type => return type
    | none => failed (operator.fault (← describe left) (← describe right)) id

def unary (id : NodeId) (operator : UnaryOp) (operand : TypeId) : Check TypeId := do
  if operand = .unknown ∨ operand = operator.operandType then
    return operand
  else
    failed (.wrongOperand operator (← describe operand)) id

/--
The parameter and result types of what can be called: a function, or the name of
a class.
-/
def callable? (registry : Registry) (callee : TypeId) : Option (List TypeId × TypeId) :=
  match registry.shape? callee with
  | some (.function parameters result) => some (parameters, result)
  | some (.typeName selfType) => do
    let object ← registry.object? selfType
    let parameters ← object.constructor
    return (parameters, selfType)
  | _ => none

def arguments : (index : Nat) → List (NodeId × TypeId) → List TypeId → Check Unit
  | index, (node, found) :: rest, expected :: types => do
    unless found.fits expected do
      report (.wrongArgument index (← describe expected) (← describe found)) node
    arguments (index + 1) rest types
  | _, _, _ => return ()

def call (id : NodeId) (callee : TypeId) (found : List (NodeId × TypeId)) : Check TypeId := do
  if callee = .unknown then
    return .unknown
  else
    let state ← get
    match callable? state.registry callee with
    | none => failed (.notCallable (← describe callee)) id
    | some (parameters, result) =>
      if parameters.length = found.length then
        arguments 1 found parameters
      else
        report (.wrongArgumentCount parameters.length found.length) id
      return result

def member (id : NodeId) (object : TypeId) (name : String) : Check TypeId := do
  if object = .unknown then
    return .unknown
  else
    let state ← get
    match (state.registry.member? object name).map Member.type with
    | some (some type) => return type
    | some none => failed (.pendingType name) id
    | none => failed (.unknownMember (← describe object) name) id

def condition (keyword : Keyword) (node : NodeId) (found : TypeId) : Check Unit := do
  unless found.fits .boolean do
    report (.wrongCondition keyword (← describe found)) node

/--
Check a `return` of a type; a wrong type is noted at the value, if there is one.
-/
def returned (id : NodeId) (valueNode : NodeId) (found : TypeId) : Check Unit := do
  let state ← get
  match state.context.returnType with
  | none => report .strayReturn id
  | some expected => expectReturn expected found valueNode

def assignment (id : NodeId) (target : String) (valueNode : NodeId) (found : TypeId) :
    Check Unit := do
  match ← lookup target with
  | none => report (.undefinedName target) id
  | some binding =>
    recordUse binding id
    if binding.isMutable then
      match binding.type with
      | none => report (.pendingType target) id
      | some expected =>
        unless found.fits expected do
          report (.wrongAssignment (← describe found) target (← describe expected)) valueNode
    else
      report (.immutableTarget target) id

def initialised
    (name : String)
    (written : Option TypeExpression)
    (valueNode : NodeId)
    (found : TypeId) :
    Check TypeId := do
  match written with
  | none => return found
  | some type =>
    let declared ← resolve type
    unless found.fits declared do
      report (.wrongInitialiser name (← describe declared) (← describe found)) valueNode
    return declared

end Check

end Toolshed
