import Toolshed.Library.Basic

namespace Toolshed

/-!
# Libraries on disk

The module `a.b.c` of a folder is its file `a/b/c.shed`.
-/

inductive DiskFault where
  | notFound
  | notDirectory
  | isDirectory
  | nameTooLong
  | notText
  | other (reason : String)
  deriving Repr, DecidableEq

def DiskFault.message : DiskFault → String
  | .notFound => "No such file or directory (os error 2)"
  | .notDirectory => "Not a directory (os error 20)"
  | .isDirectory => "Is a directory (os error 21)"
  | .nameTooLong => "File name too long (os error 36)"
  | .notText => "stream did not contain valid UTF-8"
  | .other reason => reason

/--
A disk as programs see it: texts by the paths of their files. It has no more
files than its size.
-/
structure Disk where
  read : (path : String) → Except DiskFault String
  size : Nat

namespace Library

/--
Whether a segment of a module path can be part of the path of a file. Segments
of imports always can; any other could lead out of the folder of the library.
-/
def isPlain (segment : String) : Bool :=
  !segment.isEmpty && segment.toList.all fun character => character.isAlphanum || character = '_'

def inFolder (folder file : String) : String :=
  if folder.isEmpty || folder.toList.getLast? = some '/' then
    folder ++ file
  else
    folder ++ "/" ++ file

def readFolder (disk : Disk) (folder : String) (modulePath : ModulePath) : Reading :=
  if modulePath.segments.all isPlain then
    let path := inFolder folder modulePath.filePath
    match disk.read path with
    | .ok text => .text text
    | .error .notFound => .absent
    | .error fault => .unreadable ⟨path, fault.message⟩
  else
    .absent

def folder (disk : Disk) (root : String) : Library :=
  { read := readFolder disk root
    capacity := disk.size }

end Library

end Toolshed
