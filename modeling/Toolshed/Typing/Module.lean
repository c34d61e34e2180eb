import Toolshed.Typing.Body

namespace Toolshed

/-!
# Checking modules

All names of a module are bound before any body is looked at, and all classes
before any type, so that declarations may refer to each other in any order. Then
initial values are checked in source order, and the bodies of functions after
them.
-/

/--
The interfaces of modules that can be imported; the latest entry for a module
counts.
-/
abbrev Interfaces :=
  List (ModulePath × TypeId)

structure Checked where
  diagnostics : List Diagnostic
  types : Table TypeId
  resolutions : Table Resolution
  interface : TypeId
  registry : Registry
  deriving Repr, DecidableEq

def Checked.success (checked : Checked) : Bool :=
  checked.diagnostics.isEmpty

namespace Check

/-! ## Names -/

/--
Bind the names of imports; a module without an interface has the unknown type.
-/
def declareImports (interfaces : Interfaces) : List Import → Check Unit
  | [] => return ()
  | entry :: rest => do
    let type := (interfaces.lookup entry.path).getD .unknown
    declare entry.bindingName ⟨some type, .imported entry.path, none⟩ entry.id
    declareImports interfaces rest

def declareTop (id : NodeId) (name : String) (type : Option TypeId) (kind : DeclaredKind) :
    Check Unit := do
  let free ← define name ⟨type, .declared kind, some id⟩
  if free then
    modify fun state => { state with declared := id :: state.declared }
  else
    report (.duplicateName name) id

def newClass (id : NodeId) (name : String) : Check TypeId :=
  modifyGet fun state =>
    let (selfType, registry) := state.registry.declareObject name .classInstance
    let (nameType, registry) := registry.typeNameOf selfType
    (nameType, { state with registry := registry, classes := state.classes.insert id selfType })

def declareNames : List Declaration → Check Unit
  | [] => return ()
  | .classType id name _ _ :: rest => do
    let nameType ← newClass id name
    declareTop id name (some nameType) .classType
    declareNames rest
  | .function id name _ _ _ :: rest => do
    declareTop id name none .function
    declareNames rest
  | .value id mutable name _ _ :: rest => do
    declareTop id name none (.ofMutable mutable)
    declareNames rest
  | .stray _ :: rest => declareNames rest

/-! ## Types -/

def setTopType (id : NodeId) (name : String) (type : TypeId) : Check Unit := do
  let state ← get
  if state.declared.contains id then
    setType name type

def addMember (selfType : TypeId) (owner : String) (node : NodeId) (member : Member) :
    Check Unit := do
  let free ← modifyGet fun state =>
    let (free, registry) := state.registry.addMember selfType member
    (free, { state with registry := registry })
  unless free do
    report (.duplicateMember member.name owner) node

def addParameters (selfType : TypeId) (owner : String) : List Parameter → Check (List TypeId)
  | [] => return []
  | .named id name type :: rest => do
    let firstType ← resolve type
    addMember selfType owner id ⟨name, some firstType, false⟩
    let restTypes ← addParameters selfType owner rest
    return firstType :: restTypes
  | .stray _ :: rest => addParameters selfType owner rest

def addMembers (selfType : TypeId) (owner : String) : List Declaration → Check Unit
  | [] => return ()
  | .value id mutable name type _ :: rest => do
    let memberType ← resolveOption type
    addMember selfType owner id ⟨name, memberType, mutable⟩
    addMembers selfType owner rest
  | .function id name parameters result _ :: rest => do
    let memberType ← signature parameters result
    addMember selfType owner id ⟨name, some memberType, false⟩
    addMembers selfType owner rest
  | .classType _ _ _ _ :: rest => addMembers selfType owner rest
  | .stray _ :: rest => addMembers selfType owner rest

def declareClass
    (id : NodeId)
    (name : String)
    (parameters : List Parameter)
    (members : List Declaration) :
    Check Unit := do
  let state ← get
  match state.classes.get? id with
  | none => return ()
  | some selfType =>
    let types ← addParameters selfType name parameters
    modify fun state =>
      { state with registry := state.registry.setConstructor selfType types }
    addMembers selfType name members

def declareTypes : List Declaration → Check Unit
  | [] => return ()
  | .classType id name parameters members :: rest => do
    declareClass id name parameters members
    declareTypes rest
  | .function id name parameters result _ :: rest => do
    let type ← signature parameters result
    setTopType id name type
    declareTypes rest
  | .value id _ name (some written) _ :: rest => do
    let type ← resolve written
    setTopType id name type
    declareTypes rest
  | .value _ _ _ none _ :: rest => declareTypes rest
  | .stray _ :: rest => declareTypes rest

/-! ## Initial values and bodies -/

def bindMembers : List Member → Check Unit
  | [] => return ()
  | member :: rest => do
    let _ ← define member.name ⟨member.type, .declared (.ofMutable member.mutable), none⟩
    bindMembers rest

def inClass (selfType : TypeId) (check : Check Unit) : Check Unit :=
  inScope .classBody do
    let state ← get
    bindMembers (((state.registry.object? selfType).map ObjectType.members).getD [])
    check

def inDeclaredClass (id : NodeId) (check : TypeId → Check Unit) : Check Unit := do
  let state ← get
  match state.classes.get? id with
  | none => return ()
  | some selfType => inClass selfType (check selfType)

def initialValue (arena : Arena) (owner : NodeId) (name : String) (type : Option TypeExpression)
    (initial : Expression) : Check TypeId :=
  inUnit owner do
    let found ← expression arena initial
    initialised name type initial.id found

def memberValues (arena : Arena) (owner : NodeId) (selfType : TypeId) :
    List Declaration → Check Unit
  | [] => return ()
  | .value _ _ name type initial :: rest => do
    let found ← initialValue arena owner name type initial
    if type.isNone then
      modify fun state =>
        { state with registry := state.registry.setMemberType selfType name found }
      setType name found
    memberValues arena owner selfType rest
  | _ :: rest => memberValues arena owner selfType rest

def initialValues (arena : Arena) : List Declaration → Check Unit
  | [] => return ()
  | .value id _ name type initial :: rest => do
    let found ← initialValue arena id name type initial
    if type.isNone then
      setTopType id name found
    initialValues arena rest
  | .classType id _ _ members :: rest => do
    inDeclaredClass id fun selfType => memberValues arena id selfType members
    initialValues arena rest
  | _ :: rest => initialValues arena rest

def memberBodies (arena : Arena) (owner : NodeId) : List Declaration → Check Unit
  | [] => return ()
  | .function id _ parameters result body :: rest => do
    inUnit owner
      (declaredFunction id parameters result body.returns (blockStatements arena body))
    memberBodies arena owner rest
  | _ :: rest => memberBodies arena owner rest

def bodies (arena : Arena) : List Declaration → Check Unit
  | [] => return ()
  | .function id _ parameters result body :: rest => do
    inUnit id
      (declaredFunction id parameters result body.returns (blockStatements arena body))
    bodies arena rest
  | .classType id _ _ members :: rest => do
    inDeclaredClass id fun _ => memberBodies arena id members
    bodies arena rest
  | _ :: rest => bodies arena rest

/-! ## Interface -/

def exported? : Declaration → Option (String × Bool)
  | .value _ mutable name _ _ => some (name, mutable)
  | .function _ name _ _ _ => some (name, false)
  | .classType _ name _ _ => some (name, false)
  | .stray _ => none

def publish (interface : TypeId) : List Declaration → Check Unit
  | [] => return ()
  | declaration :: rest => do
    let state ← get
    match exported? declaration with
    | some (name, mutable) =>
      if state.declared.contains declaration.id then
        let type := ((state.context.lookup name).bind Binding.type).getD .unknown
        let (_, registry) := state.registry.addMember interface ⟨name, some type, mutable⟩
        set { state with registry := registry }
    | none => pure ()
    publish interface rest

def interface (modulePath : ModulePath) (declarations : List Declaration) : Check TypeId := do
  let type ← modifyGet fun state =>
    let (type, registry) := state.registry.declareObject modulePath.text .moduleInterface
    (type, { state with registry := registry })
  publish type declarations
  return type

def sourceFile
    (arena : Arena)
    (modulePath : ModulePath)
    (interfaces : Interfaces)
    (file : SourceFile) :
    Check TypeId := do
  declareImports interfaces file.imports
  declareNames file.declarations
  declareTypes file.declarations
  initialValues arena file.declarations
  bodies arena file.declarations
  order arena (file.declarations.map Declaration.id)
  interface modulePath file.declarations

end Check

/--
Check a module against the interfaces of the modules that it imports. The
context holds what the host has.
-/
def SyntaxTree.check (tree : SyntaxTree) (modulePath : ModulePath) (context : Context)
    (registry : Registry) (interfaces : Interfaces) : Checked :=
  let start : CheckState :=
    { registry := registry
      context := context.push .moduleBody
      diagnostics := []
      types := .empty
      resolutions := .empty
      classes := .empty
      declared := []
      denotations := .empty
      units := []
      uses := [] }
  let check := Check.sourceFile tree.arena modulePath interfaces tree.sourceFile
  let (interface, state) := check.run start
  { diagnostics := state.diagnostics
    types := state.types
    resolutions := state.resolutions
    interface := interface
    registry := state.registry }

end Toolshed
