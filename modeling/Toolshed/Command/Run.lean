import Toolshed.Command.Arguments
import Toolshed.Library.Tree

namespace Toolshed

/-!
# The command

The command compiles a file or a module, says what is wrong on the error stream,
and writes the result to the output stream or to a file.
-/

inductive CommandFault where
  | unreadable (path : String) (fault : DiskFault)
  | unwritable (path : String) (fault : DiskFault)
  | broken (entry : Entry) (breakdown : Breakdown)
  deriving Repr, DecidableEq

def CommandFault.parts : CommandFault → String × String
  | .unreadable path fault => ("Failed to read file: " ++ path, fault.message)
  | .unwritable path fault => ("Failed to write output: " ++ path, fault.message)
  | .broken (.file path) breakdown => ("Failed to compile " ++ path, breakdown.message)
  | .broken (.module path) breakdown =>
    ("Failed to compile module " ++ path.text, breakdown.message)

def CommandFault.text (fault : CommandFault) : String :=
  "Error: " ++ fault.parts.1 ++ "\n\nCaused by:\n    " ++ fault.parts.2 ++ "\n"

structure Outcome where
  code : Nat
  stdout : String
  stderr : String
  deriving Repr, DecidableEq

namespace Command

/-! ## Paths -/

/--
The name of a file without its extension. A dot at the start of a name starts no
extension.
-/
def stem (name : String) : String :=
  match name.toList.reverse.dropWhile fun character => character ≠ '.' with
  | [] => name
  | _ :: before => if before.isEmpty then name else String.ofList before.reverse

def fileName (path : String) : String :=
  String.ofList (path.toList.reverse.takeWhile fun character => character ≠ '/').reverse

/--
Leave out slashes, and dots between slashes, at the start of a path that is
turned round.
-/
def trimFolder : List Char → List Char
  | '/' :: rest => trimFolder rest
  | '.' :: '/' :: rest => trimFolder rest
  | other => other

def folderOf (path : String) : String :=
  match path.toList.reverse.dropWhile fun character => character ≠ '/' with
  | [] => "."
  | slash :: rest =>
    match trimFolder rest with
    | [] => slash.toString
    | folder => String.ofList folder.reverse

/-! ## Compiling -/

def folders (arguments : Arguments) : List String :=
  match arguments.entry with
  | .file path => folderOf path :: arguments.roots
  | .module _ => arguments.roots

def library (disk : Disk) (arguments : Arguments) : Library :=
  .layered ((folders arguments).map (Library.folder disk) ++ [.bundled])

def compile (disk : Disk) (arguments : Arguments) : Except CommandFault Compilation := do
  let compiler := arguments.options.compiler
  match arguments.entry with
  | .file path =>
    let text ← (disk.read path).mapError fun fault => .unreadable path fault
    let entry := ModulePath.parse (stem (fileName path))
    let modules := Library.layered [.single entry text, library disk arguments]
    (compiler.compileModule modules entry).mapError
      fun breakdown => .broken arguments.entry breakdown
  | .module entry =>
    (compiler.compileModule (library disk arguments) entry).mapError
      fun breakdown => .broken arguments.entry breakdown

def filesOf (arguments : Arguments) (asked : List ModulePath) : List String :=
  let entryFile :=
    match arguments.entry with
    | .file path => [path]
    | .module _ => []
  entryFile ++
    (asked.filter fun path => path.segments.all Library.isPlain).flatMap fun path =>
      (folders arguments).map fun folder => Library.inFolder folder path.filePath

/-! ## Results -/

def report (report : Report) : Json :=
  .object [("kind", .string report.kind.tag), ("module", .string report.modulePath.text),
    ("description", .string report.description),
    ("range", .object [("start", report.range.start.json),
      ("end", report.range.stop.json)])]

def compiledModule (compiled : CompiledModule) : Json :=
  .object [("name", .string compiled.path.text), ("javascript", .string compiled.javascript),
    ("output_hash", .string compiled.digest)]

def compilationJson (compilation : Compilation) : Json :=
  .object [("errors", .array (compilation.reports.map report)),
    ("modules", .array (compilation.modules.map compiledModule)),
    ("javascript", (compilation.javascript.map Json.string).getD .null),
    ("success", .boolean compilation.success)]

def result? (emission : Emission) (compilation : Compilation) : Option String :=
  match emission with
  | .javascript => compilation.javascript
  | .json => some ((compilationJson compilation).spread 0 ++ "\n")

def complaints (compilation : Compilation) : String :=
  String.join (compilation.reports.map fun report => report.text ++ "\n")

def saves (arguments : Arguments) (compilation : Compilation) : Option (String × String) := do
  let path ← arguments.output
  let text ← result? arguments.emission compilation
  return (path, text)

def outcome (arguments : Arguments) (compilation : Compilation) (saved : Except DiskFault Unit) :
    Outcome :=
  match saves arguments compilation, saved with
  | some (path, _), .error fault =>
    ⟨1, "", complaints compilation ++ (CommandFault.unwritable path fault).text⟩
  | some _, .ok () => ⟨if compilation.success then 0 else 1, "", complaints compilation⟩
  | none, _ =>
    ⟨if compilation.success then 0 else 1,
      (result? arguments.emission compilation).getD "", complaints compilation⟩

def usageError : Outcome :=
  ⟨2, "", "error: invalid arguments\n"⟩

def run (tree : FileTree) (arguments : List String) : Outcome × FileTree :=
  match Arguments.read? arguments with
  | none => (usageError, tree)
  | some arguments =>
    match compile tree.disk arguments with
    | .error fault => (⟨1, "", fault.text⟩, tree)
    | .ok compilation =>
      match saves arguments compilation with
      | none => (outcome arguments compilation (.ok ()), tree)
      | some (path, text) =>
        match tree.write path text with
        | .ok after => (outcome arguments compilation (.ok ()), after)
        | .error fault => (outcome arguments compilation (.error fault), tree)

end Command

end Toolshed
