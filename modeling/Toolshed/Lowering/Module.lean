import Toolshed.Lowering.Body
import Toolshed.Lowering.Target
import Toolshed.Script.Render
import Toolshed.Script.Simplify

namespace Toolshed

/-!
# Scripts of modules

The script of a module binds its imports, then runs its declarations in order,
and hands out what they declare. A level says how much work is done on it.
-/

inductive Level where
  | none
  | simple
  deriving Repr, DecidableEq

namespace Level

def all : List Level :=
  [.none, .simple]

def text : Level → String
  | .none => "NONE"
  | .simple => "SIMPLE"

def ofText? (word : String) : Option Level :=
  all.find? fun level => Blank.folded level.text = Blank.folded word

def refusal (word : String) : String :=
  "unknown optimisation level '" ++ word ++ "' (expected NONE or SIMPLE)"

def apply : Level → List Script.Statement → List Script.Statement
  | .none, body => body
  | .simple, body => Script.simplify body

def layout : Level → Script.Layout
  | .none => .spread
  | .simple => .compact

end Level

namespace Lowering

def imports (style : ImportStyle) (modulePath : ModulePath) (found : List Import) :
    List Script.Statement :=
  found.map fun entry => style (Script.nameOf entry.bindingName) modulePath entry.path

def export? : Declaration → Option Script.Property
  | .value _ mutable name _ _ => some (property name mutable)
  | .function _ name _ _ _ => some (property name false)
  | .classType _ name _ _ => some (property name false)
  | .stray _ => none

def declarations (resolutions : Table Resolution) :
    List Declaration → Lowered (List Script.Statement)
  | [] => .ok []
  | first :: rest => do
    let first ← declaration resolutions first
    let rest ← declarations resolutions rest
    return first :: rest

def sourceFile
    (linkage : Linkage)
    (modulePath : ModulePath)
    (resolutions : Table Resolution)
    (file : SourceFile) :
    Lowered (List Script.Statement) := do
  let body ← declarations resolutions file.declarations
  return linkage.wrapper modulePath (imports linkage.importStyle modulePath file.imports ++ body)
    (file.declarations.filterMap export?)

end Lowering

def SyntaxTree.lower
    (tree : SyntaxTree)
    (linkage : Linkage)
    (level : Level)
    (modulePath : ModulePath)
    (resolutions : Table Resolution) :
    Lowered (List Script.Statement) := do
  let script ← Lowering.sourceFile linkage modulePath resolutions tree.sourceFile
  return level.apply script

def Level.render (level : Level) (script : List Script.Statement) : String :=
  Script.render level.layout script

end Toolshed
