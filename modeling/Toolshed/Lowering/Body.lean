import Toolshed.Script.Basic
import Toolshed.Script.Name
import Toolshed.Syntax.Table
import Toolshed.Syntax.Tree
import Toolshed.Typing.Scope

namespace Toolshed

/-!
# From syntax to scripts

Every declaration becomes a statement of a script. A class becomes a function
that returns an object with the parameters and members of the class.
-/

inductive NodeRole where
  | expression
  | block
  | statement
  | declaration
  | classMember
  | parameter
  deriving Repr, DecidableEq

def NodeRole.text : NodeRole → String
  | .expression => "expression"
  | .block => "block"
  | .statement => "statement"
  | .declaration => "declaration"
  | .classMember => "class member"
  | .parameter => "parameter"

inductive LoweringFault where
  | unresolved (name : String) (node : NodeId)
  | unexpected (expected : NodeRole) (node : NodeId)
  deriving Repr, DecidableEq

def LoweringFault.message : LoweringFault → String
  | .unresolved name node => "unresolved identifier '" ++ name ++ "' at node#" ++ toString node
  | .unexpected expected node => "expected " ++ expected.text ++ " at node#" ++ toString node

abbrev Lowered (α : Type) :=
  Except LoweringFault α

namespace Lowering

def identifier (resolutions : Table Resolution) (id : NodeId) (name : String) :
    Lowered Script.Expression :=
  match resolutions.get? id with
  | some (.builtin hostPath) => .ok (.path hostPath)
  | some .declared => .ok (.identifier (Script.nameOf name))
  | some (.imported _) => .ok (.identifier (Script.nameOf name))
  | none => .error (.unresolved name id)

def parameterName : Parameter → Lowered String
  | .named _ name _ => .ok name
  | .stray id => .error (.unexpected .parameter id)

def parameterNames : List Parameter → Lowered (List String)
  | [] => .ok []
  | first :: rest => do
    let firstName ← parameterName first
    let restNames ← parameterNames rest
    return firstName :: restNames

def parameters (found : List Parameter) : Lowered (List String) := do
  let names ← parameterNames found
  return names.map Script.nameOf

/--
The entry of an object for a declared name. A name that may change is read anew
each time.
-/
def property (name : String) (mutable : Bool) : Script.Property :=
  if mutable then
    .getter name (.identifier (Script.nameOf name))
  else
    .value name (.identifier (Script.nameOf name))

def variableKind (mutable : Bool) : Script.VariableKind :=
  if mutable then .scoped else .constant

def classFunction (name : String) (parameterNames : List String) (members : List Script.Statement)
    (entries : List Script.Property) : Script.Statement :=
  let fields := parameterNames.map fun parameter => property parameter false
  .function (.make (some (Script.nameOf name)) (parameterNames.map Script.nameOf)
    (members ++ [.returnValue (.object (fields ++ entries))]))

def memberEntry : Declaration → Lowered Script.Property
  | .value _ mutable name _ _ => .ok (property name mutable)
  | .function _ name _ _ _ => .ok (property name false)
  | .classType id _ _ _ => .error (.unexpected .classMember id)
  | .stray id => .error (.unexpected .classMember id)

section

variable (resolutions : Table Resolution)

mutual

def expression : Expression → Lowered Script.Expression
  | .number _ value => .ok (.number value)
  | .string _ value => .ok (.string value)
  | .boolean _ value => .ok (.boolean value)
  | .unit _ => .ok .undefined
  | .identifier id name => identifier resolutions id name
  | .binary _ operator left right => do
    let left ← expression left
    let right ← expression right
    return .binary operator left right
  | .unary _ operator operand => do
    let operand ← expression operand
    return .unary operator operand
  | .call _ callee arguments => do
    let callee ← expression callee
    let arguments ← expressions arguments
    return .call callee arguments
  | .member _ object name => do
    let object ← expression object
    return .member object name
  | .lambda _ found _ body => do
    let body ← lambdaBody body
    let names ← parameters found
    return .function (.make none names body)
  | .stray id => .error (.unexpected .expression id)

def expressions :
    List Expression → Lowered (List Script.Expression)
  | [] => .ok []
  | first :: rest => do
    let first ← expression first
    let rest ← expressions rest
    return first :: rest

def lambdaBody : LambdaBody → Lowered (List Script.Statement)
  | .expression body => do
    let value ← expression body
    return [.returnValue value]
  | .block body => block body

def block : Block → Lowered (List Script.Statement)
  | .statements _ found => statements found
  | .stray id => .error (.unexpected .block id)

def statements :
    List Statement → Lowered (List Script.Statement)
  | [] => .ok []
  | first :: rest => do
    let first ← statement first
    let rest ← statements rest
    return first :: rest

def statement : Statement → Lowered Script.Statement
  | .declaration (.classType id _ _ _) => .error (.unexpected .statement id)
  | .declaration declared => declaration declared
  | .expression _ found => do
    let found ← expression found
    return .expression found
  | .returnNothing _ => .ok .returnNothing
  | .returnValue _ value => do
    let value ← expression value
    return .returnValue value
  | .conditional _ condition thenBlock otherwise => do
    let condition ← expression condition
    let thenBody ← block thenBlock
    let elseBody ← elseBranch otherwise
    return .conditional condition thenBody elseBody
  | .loop _ condition body => do
    let condition ← expression condition
    let body ← block body
    return .loop condition body
  | .assignment _ target value => do
    let value ← expression value
    return .expression (.assignment (Script.nameOf target) value)
  | .stray id => .error (.unexpected .statement id)

def elseBranch :
    ElseBranch → Lowered (Option (List Script.Statement))
  | .nothing => .ok none
  | .block found => do
    let body ← block found
    return some body
  | .statement found =>
    if found.isConditional then do
      let nested ← statement found
      return some [nested]
    else
      .error (.unexpected .block found.id)

def declaration : Declaration → Lowered Script.Statement
  | .value _ mutable name _ initial => do
    let initial ← expression initial
    return .variable (variableKind mutable) (Script.nameOf name) initial
  | .function _ name found _ body => do
    let names ← parameters found
    let body ← block body
    return .function (.make (some (Script.nameOf name)) names body)
  | .classType _ name found members => do
    let names ← parameterNames found
    let lowered ← classMembers members
    return classFunction name names (lowered.map Prod.fst) (lowered.map Prod.snd)
  | .stray id => .error (.unexpected .declaration id)

def classMembers :
    List Declaration → Lowered (List (Script.Statement × Script.Property))
  | [] => .ok []
  | first :: rest => do
    let lowered ← declaration first
    let entry ← memberEntry first
    let rest ← classMembers rest
    return (lowered, entry) :: rest

end

end

end Lowering

end Toolshed
