import Toolshed.Syntax.Table
import Toolshed.Syntax.Tree
import Toolshed.Typing.Initialisation
import Toolshed.Typing.Scope

namespace Toolshed

/-!
# Checking

A check notes faults and goes on. What it finds out is kept in tables beside the
tree.
-/

structure CheckState where
  registry : Registry
  context : Context
  diagnostics : List Diagnostic
  types : Table TypeId
  resolutions : Table Resolution
  classes : Table TypeId
  declared : List NodeId
  denotations : Table TypeId
  /--
  The pieces of code that are being checked, up to the function or class that
  they belong to.
  -/
  units : List NodeId
  uses : UseLog
  deriving Repr, DecidableEq

abbrev Check :=
  StateM CheckState

namespace Check

def report (fault : Fault) (node : NodeId) : Check Unit :=
  modify fun state => { state with diagnostics := state.diagnostics ++ [⟨fault, .node node⟩] }

def failed (fault : Fault) (node : NodeId) : Check TypeId := do
  report fault node
  return .unknown

def describe (type : TypeId) : Check String := do
  let state ← get
  return state.registry.describe type

def functionType (parameters : List TypeId) (result : TypeId) : Check TypeId :=
  modifyGet fun state =>
    let (type, registry) := state.registry.function parameters result
    (type, { state with registry := registry })

def lookup (name : String) : Check (Option Binding) := do
  let state ← get
  return state.context.lookup name

def define (name : String) (binding : Binding) : Check Bool :=
  modifyGet fun state =>
    let (free, context) := state.context.define name binding
    (free, { state with context := context })

def declare (name : String) (binding : Binding) (node : NodeId) : Check Unit := do
  let free ← define name binding
  unless free do
    report (.duplicateName name) node

def setType (name : String) (type : TypeId) : Check Unit :=
  modify fun state => { state with context := state.context.setType name type }

def inScope (kind : ScopeKind) (check : Check α) : Check α := do
  modify fun state => { state with context := state.context.push kind }
  let result ← check
  modify fun state => { state with context := state.context.pop }
  return result

/--
Run a check as the code of an owner: what it uses belongs to the owner alone.
-/
def inUnit (owner : NodeId) (check : Check α) : Check α := do
  let before ← get
  set { before with units := [owner] }
  let result ← check
  modify fun state => { state with units := before.units }
  return result

def inStatement (statement : NodeId) (check : Check α) : Check α := do
  let before ← get
  set { before with units := before.units ++ [statement] }
  let result ← check
  modify fun state => { state with units := before.units }
  return result

def recordUse (binding : Binding) (site : NodeId) : Check Unit :=
  modify fun state =>
    match binding.declaration with
    | none => state
    | some declaration =>
      let uses := state.units.map fun unit => (unit, (⟨declaration, site⟩ : Use))
      { state with uses := uses.reverse ++ state.uses }

def typed (node : NodeId) (type : TypeId) : Check TypeId := do
  modify fun state => { state with types := state.types.insert node type }
  return type

def order (arena : Arena) (steps : List NodeId) : Check Unit :=
  modify fun state =>
    { state with
      diagnostics :=
        state.diagnostics ++ Initialisation.diagnostics arena state.uses steps }

/-! ## Written types -/

def denoting (node : NodeId) (find : Check TypeId) : Check TypeId := do
  let state ← get
  match state.denotations.get? node with
  | some type => return type
  | none =>
    let type ← find
    modify fun state => { state with denotations := state.denotations.insert node type }
    return type

def namedType (node : NodeId) (name : String) : Check TypeId := do
  match ← lookup name with
  | none => failed (.undefinedType name) node
  | some binding =>
    let state ← get
    match binding.type.bind state.registry.denoted? with
    | some type => return type
    | none => failed (.notAType name) node

mutual

def resolve : TypeExpression → Check TypeId
  | .named id name => denoting id (namedType id name)
  | .function id parameters result =>
    denoting id do
      let parameterTypes ← resolveAll parameters
      let resultType ← resolve result
      functionType parameterTypes resultType
  | .stray id => denoting id (pure .unknown)

def resolveAll : List TypeExpression → Check (List TypeId)
  | [] => return []
  | first :: rest => do
    let firstType ← resolve first
    let restTypes ← resolveAll rest
    return firstType :: restTypes

end

def resolveOption : Option TypeExpression → Check (Option TypeId)
  | none => return none
  | some written => do
    let type ← resolve written
    return some type

/-! ## Functions -/

def parameterTypes : List Parameter → Check (List TypeId)
  | [] => return []
  | .named _ _ type :: rest => do
    let firstType ← resolve type
    let restTypes ← parameterTypes rest
    return firstType :: restTypes
  | .stray _ :: rest => do
    let restTypes ← parameterTypes rest
    return .unknown :: restTypes

def signature (parameters : List Parameter) (result : Option TypeExpression) : Check TypeId := do
  let types ← parameterTypes parameters
  let resultType ← resolveOption result
  functionType types (resultType.getD .unit)

def bindParameters : List Parameter → List TypeId → Check Unit
  | .named _ name _ :: rest, type :: types => do
    let _ ← define name ⟨some type, .declared .parameter, none⟩
    bindParameters rest types
  | .stray _ :: rest, _ :: types => bindParameters rest types
  | _, _ => return ()

def inFunction (parameters : List Parameter) (types : List TypeId) (result : TypeId)
    (body : Check α) : Check α :=
  inScope (.function result) do
    bindParameters parameters types
    body

def expectReturn (expected found : TypeId) (node : NodeId) : Check Unit := do
  unless found.fits expected do
    report (.wrongReturn (← describe expected) (← describe found)) node

def expectReturns (result : TypeId) (returns : Bool) (node : NodeId) : Check Unit := do
  if result ≠ .unit ∧ result ≠ .unknown ∧ !returns then
    report (.missingReturn (← describe result)) node

end Check

end Toolshed
