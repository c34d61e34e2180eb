import Toolshed.Syntax.Node

namespace Toolshed

/-!
# Order of initialisation

Functions and classes can be used before their declarations, so running a
statement can reach a value whose own declaration has not run. What each piece
of code uses is logged while it is checked. Then every statement of a block is
followed, through the functions and classes that it uses, to the values that it
may touch.
-/

structure Use where
  declaration : NodeId
  site : NodeId
  deriving Repr, DecidableEq

abbrev UseLog :=
  List (NodeId × Use)

def UseLog.of (log : UseLog) (unit : NodeId) : List Use :=
  (log.filterMap fun (owner, use) => if owner = unit then some use else none).reverse

inductive DeclaredThing where
  /--
  A value; one without a type has no type until its declaration has been
  checked.
  -/
  | value (name : String) (hasType : Bool)
  | code (name : String)
  deriving Repr, DecidableEq

def Arena.declaredThing? (arena : Arena) (id : NodeId) : Option DeclaredThing :=
  match arena.node? id with
  | some (.letDecl _ name type _) => some (.value name type.isSome)
  | some (.funDecl name _ _ _) => some (.code name)
  | some (.classDecl name _ _) => some (.code name)
  | _ => none

structure ReachedUse where
  use : Use
  through : Option String
  deriving Repr, DecidableEq

namespace Initialisation

def position? (steps : List NodeId) (id : NodeId) : Option Nat :=
  (steps.zipIdx.reverse.find? fun entry => entry.1 = id).map Prod.snd

def isEarly (steps : List NodeId) (index : Nat) (id : NodeId) : Bool :=
  (position? steps id).any fun position => index ≤ position

def reachedThrough (log : UseLog) (name : String) (reached : ReachedUse) : List ReachedUse :=
  (log.of reached.use.declaration).map fun use =>
    ⟨⟨use.declaration, reached.use.site⟩, some (reached.through.getD name)⟩

def diagnostic (name : String) (reached : ReachedUse) : Diagnostic :=
  match reached.through with
  | some through => ⟨.usedEarlyThrough name through, .node reached.use.site⟩
  | none => ⟨.usedEarly name, .node reached.use.site⟩

/--
Follow the uses in a queue, at most `fuel` of them, and report the early ones.
Each function and class is entered once, and each value is reported once. A
direct use of a value without a type is reported when its type is looked up, and
not here.
-/
def follow (arena : Arena) (log : UseLog) (steps : List NodeId) (index : Nat) :
    (fuel : Nat) → (queue : List ReachedUse) → (entered reported : List NodeId) → List Diagnostic
  | 0, _, _, _ => []
  | _ + 1, [], _, _ => []
  | fuel + 1, reached :: queue, entered, reported =>
    let id := reached.use.declaration
    match arena.declaredThing? id with
    | some (.value name hasType) =>
      if isEarly steps index id && (reached.through.isSome || hasType) &&
          !reported.contains id then
        diagnostic name reached ::
          follow arena log steps index fuel queue entered (id :: reported)
      else
        follow arena log steps index fuel queue entered reported
    | some (.code name) =>
      if entered.contains id then
        follow arena log steps index fuel queue entered reported
      else
        follow arena log steps index fuel (queue ++ reachedThrough log name reached)
          (id :: entered) reported
    | none => follow arena log steps index fuel queue entered reported

/--
The early uses of the step at an index. Declaring a function or class runs none
of its code. Every use in the log is met at most once for the step itself and
once for its owner, so twice the length of the log is enough.
-/
def stepDiagnostics (arena : Arena) (log : UseLog) (steps : List NodeId) (step : NodeId)
    (index : Nat) : List Diagnostic :=
  match arena.declaredThing? step with
  | some (.code _) => []
  | _ =>
    follow arena log steps index (2 * log.length + 1)
      ((log.of step).map fun use => ⟨use, none⟩) [] []

def diagnostics (arena : Arena) (log : UseLog) (steps : List NodeId) : List Diagnostic :=
  steps.zipIdx.flatMap fun (step, index) => stepDiagnostics arena log steps step index

end Initialisation

end Toolshed
