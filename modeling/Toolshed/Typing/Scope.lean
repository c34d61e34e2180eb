import Toolshed.Diagnostic
import Toolshed.Typing.Registry

namespace Toolshed

/-!
# Scopes

Names are bound in scopes, and scopes lie inside one another. A name means its
innermost binding, and a scope binds a name at most once.
-/

inductive DeclaredKind where
  | letValue
  | varValue
  | function
  | classType
  | parameter
  deriving Repr, DecidableEq

inductive Origin where
  | builtin (hostPath : String)
  | declared (kind : DeclaredKind)
  | imported (path : ModulePath)
  deriving Repr, DecidableEq

inductive Resolution where
  | builtin (hostPath : String)
  | declared
  | imported (path : ModulePath)
  deriving Repr, DecidableEq

def Origin.resolution : Origin → Resolution
  | .builtin hostPath => .builtin hostPath
  | .declared _ => .declared
  | .imported path => .imported path

structure Binding where
  type : Option TypeId
  origin : Origin
  declaration : Option NodeId
  deriving Repr, DecidableEq

def Binding.isMutable (binding : Binding) : Bool :=
  binding.origin = .declared .varValue

inductive ScopeKind where
  | global
  | moduleBody
  | function (result : TypeId)
  | block
  | classBody
  deriving Repr, DecidableEq

structure Scope where
  kind : ScopeKind
  bindings : List (String × Binding)
  deriving Repr, DecidableEq

namespace Scope

def get? (scope : Scope) (name : String) : Option Binding :=
  scope.bindings.lookup name

def has (scope : Scope) (name : String) : Bool :=
  (scope.get? name).isSome

def setType (scope : Scope) (name : String) (type : TypeId) : Scope :=
  { scope with
    bindings := scope.bindings.map fun (bound, binding) =>
      (bound, if bound = name then { binding with type := some type } else binding) }

def setTypeIn (name : String) (type : TypeId) : List Scope → List Scope
  | [] => []
  | scope :: rest =>
    if scope.has name then
      scope.setType name type :: rest
    else
      scope :: setTypeIn name type rest

/--
The result type of the innermost function among some scopes; it is not looked
for outside a class or module.
-/
def returnTypeIn : List Scope → Option TypeId
  | [] => none
  | scope :: rest =>
    match scope.kind with
    | .function result => some result
    | .block => returnTypeIn rest
    | .global | .moduleBody | .classBody => none

end Scope

/--
The scopes around a place in a program: the innermost one, and those around it.
-/
structure Context where
  innermost : Scope
  outer : List Scope
  deriving Repr, DecidableEq

namespace Context

def empty : Context :=
  ⟨⟨.global, []⟩, []⟩

def scopes (context : Context) : List Scope :=
  context.innermost :: context.outer

def depth (context : Context) : Nat :=
  context.scopes.length

def push (context : Context) (kind : ScopeKind) : Context :=
  ⟨⟨kind, []⟩, context.scopes⟩

/-- Close the innermost scope; the outermost one stays. -/
def pop (context : Context) : Context :=
  match context.outer with
  | [] => context
  | scope :: rest => ⟨scope, rest⟩

def definedLocally (context : Context) (name : String) : Bool :=
  context.innermost.has name

def define (context : Context) (name : String) (binding : Binding) : Bool × Context :=
  if context.definedLocally name then
    (false, context)
  else
    let scope := context.innermost
    (true, { context with innermost := { scope with
      bindings := scope.bindings ++ [(name, binding)] } })

def lookup (context : Context) (name : String) : Option Binding :=
  context.scopes.findSome? fun scope => scope.get? name

def setType (context : Context) (name : String) (type : TypeId) : Context :=
  if context.innermost.has name then
    { context with innermost := context.innermost.setType name type }
  else
    { context with outer := Scope.setTypeIn name type context.outer }

def returnType (context : Context) : Option TypeId :=
  Scope.returnTypeIn context.scopes

def localNames (context : Context) : List String :=
  (context.innermost.bindings.map Prod.fst).mergeSort fun first second =>
    ModulePath.compareTexts first second != .gt

end Context

end Toolshed
