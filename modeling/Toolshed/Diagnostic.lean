import Toolshed.Fault

namespace Toolshed

/-!
# Diagnostics

A diagnostic is a fault with its place: a range, or a syntax node whose range is
looked up when the fault is reported. A report is a diagnostic that has its range
and names the module it belongs to.
-/

/--
The number of a syntax node, counted from zero in the order in which nodes are
made.
-/
abbrev NodeId :=
  Nat

abbrev Locations :=
  Array Range

inductive Place where
  | range (range : Range)
  | node (node : NodeId)
  deriving Repr, DecidableEq

def Place.node? : Place → Option NodeId
  | .range _ => none
  | .node id => some id

structure Diagnostic where
  fault : Fault
  place : Place
  deriving Repr, DecidableEq

/-- What must never happen in a compilation, whatever its input. -/
inductive Breakdown where
  | unlocated (node : NodeId) (message : String)
  | invariant (message : String)
  deriving Repr, DecidableEq

def Breakdown.message : Breakdown → String
  | .unlocated node message =>
    "cannot locate error '" ++ message ++ "': node#" ++ toString node ++ " has no source location"
  | .invariant message => "internal compiler error: " ++ message

namespace Diagnostic

/-- The range of a diagnostic. An internal fault has none: it is a breakdown. -/
def resolve (diagnostic : Diagnostic) (locations : Locations) : Except Breakdown Range :=
  if diagnostic.fault.kind = .internal then
    .error (.invariant diagnostic.fault.message)
  else
    match diagnostic.place with
    | .range range => .ok range
    | .node node =>
      match locations[node]? with
      | some range => .ok range
      | none => .error (.unlocated node diagnostic.fault.message)

def count (kind : FaultKind) (diagnostics : List Diagnostic) : Nat :=
  diagnostics.countP fun diagnostic => diagnostic.fault.kind = kind

def hasKind (kind : FaultKind) (diagnostics : List Diagnostic) : Bool :=
  diagnostics.any fun diagnostic => diagnostic.fault.kind = kind

end Diagnostic

structure Report where
  kind : FaultKind
  modulePath : ModulePath
  description : String
  range : Range
  deriving Repr, DecidableEq

namespace Report

def ofDiagnostic
    (modulePath : ModulePath)
    (locations : Locations)
    (diagnostic : Diagnostic) :
    Except Breakdown Report := do
  let range ← diagnostic.resolve locations
  return ⟨diagnostic.fault.kind, modulePath, diagnostic.fault.description, range⟩

def text (report : Report) : String :=
  report.modulePath.text ++ ":" ++ report.range.start.text ++ ": " ++ report.description

end Report

end Toolshed
