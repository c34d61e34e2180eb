import Toolshed.Script.Basic
import Toolshed.Text.Blank

namespace Toolshed

/-!
# Where scripts run

A target says how a module names the modules that it imports, and how it hands
out what it declares.
-/

abbrev ImportStyle :=
  (binding : String) → (importer imported : ModulePath) → Script.Statement

abbrev Wrapper :=
  ModulePath → List Script.Statement → List Script.Property → List Script.Statement

structure Linkage where
  importStyle : ImportStyle
  wrapper : Wrapper

namespace ImportStyle

def bindingTo (binding : String) (callee : Script.Expression) (argument : String) :
    Script.Statement :=
  .variable .hoisted binding (.call callee [.string argument])

def browser : ImportStyle :=
  fun binding _ imported => bindingTo binding (.path "SHED.importModule") imported.text

def shared : List String → List String → Nat
  | first :: firstRest, second :: secondRest =>
    if first = second then shared firstRest secondRest + 1 else 0
  | _, _ => 0

/--
The path to the file of a module from the folder of another. The last name of a
module is a file and never a folder.
-/
def specifier (importer imported : ModulePath) : String :=
  let folder := importer.segments.dropLast
  let common := min (shared folder imported.segments) (imported.segments.length - 1)
  let up := folder.length - common
  let start := if up = 0 then "./" else String.join (List.replicate up "../")
  start ++ "/".intercalate (imported.segments.drop common)

def commonJs : ImportStyle :=
  fun binding importer imported =>
    bindingTo binding (.identifier "require") (specifier importer imported)

end ImportStyle

namespace Wrapper

def browser : Wrapper :=
  fun modulePath body entries =>
    [.expression (.call (.path "SHED.exportModule")
      [.string modulePath.text,
        .function (.make none [] (body ++ [.returnValue (.object entries)]))])]

def commonJs : Wrapper :=
  fun _ body entries =>
    body ++ [.expression (.assignment "module.exports" (.object entries))]

def bare : Wrapper :=
  fun _ body _ => body

end Wrapper

inductive Target where
  | browser
  | commonJs
  | script
  deriving Repr, DecidableEq

namespace Target

def all : List Target :=
  [.browser, .commonJs, .script]

def text : Target → String
  | .browser => "browser"
  | .commonJs => "common-js"
  | .script => "script"

def words : Target → List String
  | .commonJs => ["common-js", "commonjs"]
  | target => [target.text]

def ofText? (word : String) : Option Target :=
  all.find? fun target => target.words.contains (Blank.folded word)

def refusal (word : String) : String :=
  "unknown target '" ++ word ++ "' (expected browser, common-js or script)"

def linkage : Target → Linkage
  | .browser => ⟨.browser, .browser⟩
  | .commonJs => ⟨.commonJs, .commonJs⟩
  | .script => ⟨.browser, .bare⟩

end Target

end Toolshed
