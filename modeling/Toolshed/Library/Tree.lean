import Toolshed.Library.Disk

namespace Toolshed

/-!
# Disks in memory

A tree of files and folders that paths lead through as they do on a disk: `.`
stays in a folder, `..` leaves it, a path that starts with a slash starts at the
top of the tree and any other in its working folder, and a path that ends in a
slash leads to a folder.
-/

/--
A tree of files and folders, by the names that lead to them from its top. A
folder above a file or folder need not be listed.
-/
structure FileTree where
  files : List (List String × ByteArray)
  folders : List (List String)
  home : List String

inductive Spot where
  | file (place : List String) (content : ByteArray)
  | folder (place : List String)
  | free (place : List String)

namespace FileTree

def maxName : Nat :=
  255

def maxPath : Nat :=
  4095

def splitAtSlashes : List Char → List (List Char)
  | [] => [[]]
  | character :: rest =>
    if character = '/' then
      [] :: splitAtSlashes rest
    else
      match splitAtSlashes rest with
      | [] => [[character]]
      | part :: others => (character :: part) :: others

def names (path : String) : List String :=
  ((splitAtSlashes path.toList).map String.ofList).filter fun name => !name.isEmpty

def startsWithSlash (path : String) : Bool :=
  path.toList.head? = some '/'

def endsInSlash (path : String) : Bool :=
  path.toList.getLast? = some '/'

def fileAt? (tree : FileTree) (place : List String) : Option ByteArray :=
  tree.files.lookup place

def isFolder (tree : FileTree) (place : List String) : Bool :=
  place.isEmpty || tree.folders.any (fun folder => place.isPrefixOf folder) ||
    tree.files.any fun (file, _) => place.isPrefixOf file && place.length < file.length

def follow (tree : FileTree) : (folder : List String) → List String → Except DiskFault Spot
  | folder, [] => .ok (.folder folder)
  | folder, name :: rest =>
    if name = "." then
      tree.follow folder rest
    else if name = ".." then
      tree.follow folder.dropLast rest
    else if maxName < name.utf8ByteSize then
      .error .nameTooLong
    else
      let place := folder ++ [name]
      match tree.fileAt? place with
      | some content =>
        if rest.isEmpty then .ok (.file place content) else .error .notDirectory
      | none =>
        if tree.isFolder place then
          tree.follow place rest
        else if rest.isEmpty then
          .ok (.free place)
        else
          .error .notFound

def start (tree : FileTree) (path : String) : Except DiskFault (List String) :=
  if path.isEmpty then
    .error .notFound
  else if maxPath < path.utf8ByteSize then
    .error .nameTooLong
  else
    .ok (if startsWithSlash path then [] else tree.home)

def locate (tree : FileTree) (path : String) : Except DiskFault Spot := do
  let folder ← tree.start path
  tree.follow folder (names path ++ if endsInSlash path then ["."] else [])

def read (tree : FileTree) (path : String) : Except DiskFault String := do
  match ← tree.locate path with
  | .file _ content =>
    match String.fromUTF8? content with
    | some text => return text
    | none => throw .notText
  | .folder _ => throw .isDirectory
  | .free _ => throw .notFound

def disk (tree : FileTree) : Disk :=
  { read := tree.read
    size := tree.files.length }

def namesFolder (path : String) : Bool :=
  endsInSlash path || (names path).getLast? = some "." || (names path).getLast? = some ".."

/--
The tree with a text in the file that a path leads to. Where a path can only lead
to a folder, the folder that its last name is in has to be there all the same.
-/
def write (tree : FileTree) (path text : String) : Except DiskFault FileTree := do
  if namesFolder path then
    let folder ← tree.start path
    let _ ← tree.follow folder ((names path).dropLast ++ ["."])
    throw .isDirectory
  else
    match ← tree.locate path with
    | .folder _ => throw .isDirectory
    | .file place _ =>
      return { tree with
        files := tree.files.map fun (file, content) =>
          (file, if file = place then text.toUTF8 else content) }
    | .free place => return { tree with files := tree.files ++ [(place, text.toUTF8)] }

/--
The files in the working folder of a tree that another tree does not have, or has
with another content, by their paths from there.
-/
def changes (before after : FileTree) : List (String × ByteArray) :=
  (after.files.filter fun (place, content) =>
    (before.fileAt? place).map ByteArray.data ≠ some content.data).filterMap
    fun (place, content) =>
      (after.home.isPrefixOf? place).map fun path => ("/".intercalate path, content)

end FileTree

end Toolshed
