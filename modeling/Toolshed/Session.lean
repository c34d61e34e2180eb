import Toolshed.Grammar.SourceFile
import Toolshed.Library.Bundled
import Toolshed.Lowering.Module
import Toolshed.Text.Digest
import Toolshed.Token.Scan
import Toolshed.Typing.Module
import Toolshed.Typing.Profile

namespace Toolshed

/-!
# Compiling modules

A session compiles a module and all that it imports, each module once and
imports first. A module that fails makes those that import it fail too, and all
that is wrong is reported.
-/

structure Compiler where
  profile : Profile
  level : Level
  linkage : Linkage

structure CompiledModule where
  path : ModulePath
  javascript : String
  digest : String
  deriving Repr, DecidableEq

inductive ModuleState where
  | compiled (interface : TypeId)
  | failed
  deriving Repr, DecidableEq

structure Session where
  registry : Registry
  done : List (ModulePath × ModuleState)
  /-- The modules that are being compiled, each of which imports the next. -/
  inProgress : List ModulePath
  modules : List CompiledModule
  reports : List Report
  asked : List ModulePath
  tokens : Option (List Token)
  deriving Repr, DecidableEq

inductive Required where
  | ready (interface : TypeId)
  | failed
  /-- The module is being compiled: the chain of imports from it back to it. -/
  | cycle (chain : List ModulePath)
  | missing
  | unreadable (failure : ReadFailure)
  deriving Repr, DecidableEq

/--
A step of a session; it breaks off only if the compiler itself is at fault.
-/
abbrev Compile :=
  StateT Session (Except Breakdown)

class MonadCompile (m : Type → Type) extends
    Monad m, MonadStateOf Session m, MonadExceptOf Breakdown m, MonadLift (Except Breakdown) m

instance : MonadCompile Compile where

def Required.fault? (path : ModulePath) : Required → Option Fault
  | .ready _ => none
  | .failed => none
  | .cycle chain => some (.importCycle chain)
  | .missing => some (.missingModule path)
  | .unreadable failure => some (.unreadableModule failure.message)

def ModuleState.required : ModuleState → Required
  | .compiled interface => .ready interface
  | .failed => .failed

structure Compilation where
  reports : List Report
  modules : List CompiledModule
  asked : List ModulePath
  tokens : List Token
  deriving Repr, DecidableEq

namespace Compilation

def success (compilation : Compilation) : Bool :=
  compilation.reports.isEmpty

def javascript (compilation : Compilation) : Option String :=
  if compilation.success then
    some ("\n".intercalate (compilation.modules.map CompiledModule.javascript))
  else
    none

end Compilation

structure ImportSummary where
  interfaces : Interfaces
  diagnostics : List Diagnostic
  ready : Bool

namespace Compile

variable {m : Type → Type} [MonadCompile m]

def report (path : ModulePath) (locations : Locations) : List Diagnostic → m Unit
  | [] => return ()
  | diagnostic :: rest => do
    let entry ← (Report.ofDiagnostic path locations diagnostic : Except Breakdown Report)
    modify fun session => { session with reports := session.reports ++ [entry] }
    report path locations rest

def requireAll (require : ModulePath → m Required) : List Import → m ImportSummary
  | [] => return ⟨[], [], true⟩
  | entry :: rest => do
    let required ← require entry.path
    let summary ← requireAll require rest
    let diagnostics :=
      (required.fault? entry.path).toList.map fun fault => (⟨fault, .node entry.id⟩ : Diagnostic)
    match required with
    | .ready interface =>
      return { summary with interfaces := (entry.path, interface) :: summary.interfaces }
    | _ =>
      return { summary with diagnostics := diagnostics ++ summary.diagnostics, ready := false }

def check (context : Context) (path : ModulePath) (tree : SyntaxTree) (interfaces : Interfaces) :
    m Checked :=
  modifyGet fun session =>
    let checked := tree.check path context session.registry interfaces
    (checked, { session with registry := checked.registry })

def generate
    (compiler : Compiler)
    (path : ModulePath)
    (tree : SyntaxTree)
    (resolutions : Table Resolution) :
    m Unit := do
  match tree.lower compiler.linkage compiler.level path resolutions with
  | .error fault => throw (.invariant fault.message)
  | .ok script =>
    let javascript := compiler.level.render script
    if Blank.allBlank javascript && !tree.sourceFile.declarations.isEmpty then
      throw (.invariant ("module '" ++ path.text ++ "' generated no code"))
    else
      modify fun session =>
        { session with
          modules := session.modules ++ [⟨path, javascript, Digest.sha256 javascript⟩] }

def compileTree
    (compiler : Compiler)
    (context : Context)
    (require : ModulePath → m Required)
    (path : ModulePath)
    (tree : SyntaxTree) :
    m ModuleState := do
  let summary ← requireAll require tree.imports
  report path tree.arena.locations summary.diagnostics
  let checked ← check context path tree summary.interfaces
  report path tree.arena.locations checked.diagnostics
  if summary.ready && checked.success then
    generate compiler path tree checked.resolutions
    return .compiled checked.interface
  else
    return .failed

def compileScan
    (compiler : Compiler)
    (context : Context)
    (require : ModulePath → m Required)
    (path : ModulePath)
    (scan : Scan) :
    m ModuleState := do
  let parsed := SyntaxTree.parse scan.tokens
  if scan.diagnostics.isEmpty && parsed.success then
    compileTree compiler context require path parsed.tree
  else
    report path parsed.tree.arena.locations (scan.diagnostics ++ parsed.diagnostics)
    return .failed

def compileText
    (compiler : Compiler)
    (context : Context)
    (require : ModulePath → m Required)
    (entry path : ModulePath)
    (text : String) :
    m ModuleState := do
  let scan := Token.scan text
  if path = entry then
    modify fun session => { session with tokens := some scan.tokens }
  compileScan compiler context require path scan

def compileModule
    (compiler : Compiler)
    (context : Context)
    (require : ModulePath → m Required)
    (entry path : ModulePath)
    (text : String) :
    m Required := do
  modify fun session => { session with inProgress := session.inProgress ++ [path] }
  let state ← compileText compiler context require entry path text
  modify fun session =>
    { session with
      inProgress := session.inProgress.dropLast
      done := (path, state) :: session.done }
  return state.required

def ask (library : Library) (path : ModulePath) : m Reading := do
  modify fun session => { session with asked := session.asked ++ [path] }
  return library.read path

def require (compiler : Compiler) (library : Library) (context : Context) (entry : ModulePath) :
    (fuel : Nat) → ModulePath → m Required
  | 0, _ => throw (.invariant "chain of imports is longer than the library")
  | fuel + 1, path => do
    let session ← get
    match session.done.lookup path with
    | some state => return state.required
    | none =>
      if session.inProgress.contains path then
        return .cycle (session.inProgress.dropWhile (fun other => other ≠ path) ++ [path])
      else
        match ← ask library path with
        | .absent => return .missing
        | .unreadable failure => return .unreadable failure
        | .text text =>
          compileModule compiler context (require compiler library context entry fuel) entry
            path text

def reportEntry (entry : ModulePath) (required : Required) : m Unit := do
  match required with
  | .cycle chain =>
    throw (.invariant ("entry module reported as its own cycle: " ++
      " -> ".intercalate (chain.map ModulePath.text)))
  | _ =>
    let diagnostics := (required.fault? entry).toList.map fun fault =>
      (⟨fault, .range (.point .origin)⟩ : Diagnostic)
    report entry #[] diagnostics

end Compile

namespace Compiler

/--
Compile a module of a library with all that it imports. The modules that are
being compiled are different and have texts, so no chain of imports is longer
than the capacity of the library.
-/
def compileModule (compiler : Compiler) (library : Library) (entry : ModulePath) :
    Except Breakdown Compilation := do
  let (registry, context) := compiler.profile.seed .initial
  let start : Session :=
    { registry := registry
      done := []
      inProgress := []
      modules := []
      reports := []
      asked := []
      tokens := none }
  let run : Compile Unit := do
    let required ← Compile.require compiler library context entry (library.capacity + 1) entry
    Compile.reportEntry entry required
  let (_, session) ← run.run start
  return ⟨session.reports, session.modules, session.asked, session.tokens.getD []⟩

def snippet : ModulePath :=
  ModulePath.parse "snippet"

def compileSource (compiler : Compiler) (text : String) : Except Breakdown Compilation :=
  compiler.compileModule (.layered [.single snippet text, .bundled]) snippet

end Compiler

end Toolshed
