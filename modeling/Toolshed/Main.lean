import Toolshed.Command.Run

namespace Toolshed

/-!
# The command on a real disk

A compilation is repeated with all files that it asked for until it asks for no
other.
-/

namespace Command

abbrev Findings :=
  List (String × Except DiskFault String)

def Findings.disk (findings : Findings) : Disk :=
  { read := fun path => (findings.lookup path).getD (.error .notFound)
    size := findings.length }

def diskFault : IO.Error → DiskFault
  | .noFileOrDirectory _ _ _ => .notFound
  | .inappropriateType _ 20 _ => .notDirectory
  | .inappropriateType _ 21 _ => .isDirectory
  | .permissionDenied _ _ _ => .other "Permission denied (os error 13)"
  | .invalidArgument _ 36 _ => .nameTooLong
  | fault => .other (toString fault)

def readFile (path : String) : IO (Except DiskFault String) := do
  try
    let content ← IO.FS.readBinFile path
    match String.fromUTF8? content with
    | some text => return .ok text
    | none => return .error .notText
  catch fault => return .error (diskFault fault)

def writeFile (path text : String) : IO (Except DiskFault Unit) := do
  try
    IO.FS.writeFile path text
    return .ok ()
  catch fault => return .error (diskFault fault)

partial def settle (arguments : Arguments) (findings : Findings) :
    IO (Except CommandFault Compilation) := do
  let result := compile findings.disk arguments
  let asked := (result.toOption.map Compilation.asked).getD []
  let missing := (filesOf arguments asked).filter fun path => (findings.lookup path).isNone
  if missing.isEmpty then
    return result
  else
    let found ← missing.eraseDups.mapM fun path => do
      let content ← readFile path
      return (path, content)
    settle arguments (findings ++ found)

def deliver (outcome : Outcome) : IO UInt32 := do
  (← IO.getStderr).putStr outcome.stderr
  (← IO.getStdout).putStr outcome.stdout
  return outcome.code.toUInt32

end Command

end Toolshed

open Toolshed in
def main (arguments : List String) : IO UInt32 := do
  match Arguments.read? arguments with
  | none => Command.deliver Command.usageError
  | some arguments =>
    match ← Command.settle arguments [] with
    | .error fault => Command.deliver ⟨1, "", fault.text⟩
    | .ok compilation =>
      match Command.saves arguments compilation with
      | none => Command.deliver (Command.outcome arguments compilation (.ok ()))
      | some (path, text) =>
        let saved ← Command.writeFile path text
        Command.deliver (Command.outcome arguments compilation saved)
