namespace Toolshed

/-!
# Module paths

A module is named by a dotted path such as `shed.core.strings`. The path also
says where the file of the module lies below the directory that holds it.
-/

structure ModulePath where
  segments : List String
  deriving Repr, DecidableEq, Inhabited

namespace ModulePath

/--
Cut a text at its dots; there is always one part more than there are dots.
-/
def splitAtDots : List Char → List (List Char)
  | [] => [[]]
  | character :: rest =>
    if character = '.' then
      [] :: splitAtDots rest
    else
      match splitAtDots rest with
      | [] => [[character]]
      | part :: others => (character :: part) :: others

/--
The path written by a dotted name. Empty segments are kept, so that `a..b` is
never `a.b`.
-/
def parse (dotted : String) : ModulePath :=
  ⟨(splitAtDots dotted.toList).map String.ofList⟩

def text (path : ModulePath) : String :=
  ".".intercalate path.segments

def last (path : ModulePath) : String :=
  path.segments.getLastD ""

def filePath (path : ModulePath) : String :=
  "/".intercalate path.segments ++ ".shed"

/--
Texts are compared character by character, which is also the order of their
UTF-8 bytes.
-/
def compareTexts (first second : String) : Ordering :=
  if first < second then .lt else if first = second then .eq else .gt

def compareSegments : List String → List String → Ordering
  | [], [] => .eq
  | [], _ :: _ => .lt
  | _ :: _, [] => .gt
  | first :: firstRest, second :: secondRest =>
    (compareTexts first second).then (compareSegments firstRest secondRest)

def compare (first second : ModulePath) : Ordering :=
  compareSegments first.segments second.segments

end ModulePath

end Toolshed
