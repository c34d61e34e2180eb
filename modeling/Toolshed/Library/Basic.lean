import Toolshed.ModulePath

namespace Toolshed

/-!
# Libraries of modules

A library answers the text of a module by its path. Libraries can lie in layers:
the first one that has a module counts.
-/

structure ReadFailure where
  file : String
  reason : String
  deriving Repr, DecidableEq

def ReadFailure.message (failure : ReadFailure) : String :=
  "cannot read " ++ failure.file ++ ": " ++ failure.reason

instance : Coe ReadFailure String :=
  ⟨ReadFailure.message⟩

inductive Reading where
  | text (text : String)
  | absent
  | unreadable (failure : ReadFailure)
  deriving Repr, DecidableEq

/-- A library of modules. No more modules than its capacity have a text. -/
structure Library where
  read : ModulePath → Reading
  capacity : Nat

namespace Library

def ofTexts (entries : List (ModulePath × String)) : Library :=
  { read := fun path =>
      match entries.lookup path with
      | some text => .text text
      | none => .absent
    capacity := entries.length }

def single (path : ModulePath) (text : String) : Library :=
  ofTexts [(path, text)]

def refusing (paths : List ModulePath) (reason : String) : Library :=
  { read := fun path => if paths.contains path then .unreadable ⟨path.filePath, reason⟩ else .absent
    capacity := 0 }

def readFirst (path : ModulePath) : List Library → Reading
  | [] => .absent
  | library :: rest =>
    match library.read path with
    | .absent => readFirst path rest
    | found => found

def totalCapacity : List Library → Nat
  | [] => 0
  | library :: rest => library.capacity + totalCapacity rest

def layered (layers : List Library) : Library :=
  { read := fun path => readFirst path layers
    capacity := totalCapacity layers }

end Library

end Toolshed
