import Toolshed.Proofs.Grammar.Language
import Toolshed.Proofs.Script.Scoping
import Toolshed.Proofs.Typing.TopLevel

namespace Toolshed

/-!
# Where names occur, and what is bound there

The names of a module and of a class are bound in all of it. A function is bound
in the whole block that declares it, and a value of a block only after its
declaration.
-/

/-- A scope as it is seen from a place inside it. -/
structure Visible where
  names : List String
  later : List String
  deriving Repr, DecidableEq

/-- What a name is used for. -/
inductive Site where
  | identifier (id : NodeId)
  | target (id : NodeId)
  | entry
  deriving Repr, DecidableEq

/-- A place that uses a name, with the scopes of the module around it, the innermost first. -/
structure Occurrence where
  site : Site
  name : String
  scopes : List Visible
  deriving Repr, DecidableEq

/--
The scope that binds a name, by the number of scopes inside it, and the first
place of the name there; the host binds the other names.
-/
def Occurrence.binder? (occurrence : Occurrence) : Option (Nat × Nat) :=
  innermost? (fun scope => scope.names.idxOf? occurrence.name) occurrence.scopes

def Declaration.functionNames : Declaration → List String
  | .function _ name _ _ _ | .classType _ name _ _ => [name]
  | .value _ _ _ _ _ | .stray _ => []

def Declaration.valueNames : Declaration → List String
  | .value _ _ name _ _ => [name]
  | _ => []

def Statement.functionNames : Statement → List String
  | .declaration (.function _ name _ _ _) => [name]
  | _ => []

def Statement.valueNames : Statement → List String
  | .declaration (.value _ _ name _ _) => [name]
  | _ => []

mutual

def Expression.occurrences (scopes : List Visible) : Expression → List Occurrence
  | .identifier id name => [⟨.identifier id, name, scopes⟩]
  | .binary _ _ left right => left.occurrences scopes ++ right.occurrences scopes
  | .unary _ _ operand => operand.occurrences scopes
  | .call _ callee arguments =>
    callee.occurrences scopes ++ Expression.occurrencesOfAll scopes arguments
  | .member _ object _ => object.occurrences scopes
  | .lambda _ parameters _ body => body.occurrences scopes (parameters.filterMap Parameter.name?)
  | .number _ _ | .string _ _ | .boolean _ _ | .unit _ | .stray _ => []

def Expression.occurrencesOfAll (scopes : List Visible) : List Expression → List Occurrence
  | [] => []
  | first :: rest => first.occurrences scopes ++ Expression.occurrencesOfAll scopes rest

def LambdaBody.occurrences (scopes : List Visible) (parameters : List String) :
    LambdaBody → List Occurrence
  | .expression body => body.occurrences (⟨parameters, []⟩ :: scopes)
  | .block body => body.occurrences scopes parameters

def Block.occurrences (scopes : List Visible) (bound : List String) : Block → List Occurrence
  | .statements _ statements =>
    Statement.occurrencesOfAll scopes (bound ++ statements.flatMap Statement.functionNames)
      statements
  | .stray _ => []

def Statement.occurrencesOfAll (scopes : List Visible) (bound : List String) :
    List Statement → List Occurrence
  | [] => []
  | first :: rest =>
    first.occurrences (⟨bound, (first :: rest).flatMap Statement.valueNames⟩ :: scopes) ++
      Statement.occurrencesOfAll scopes (bound ++ first.valueNames) rest

def Statement.occurrences (scopes : List Visible) : Statement → List Occurrence
  | .declaration declared => declared.occurrences scopes
  | .expression _ expression => expression.occurrences scopes
  | .returnNothing _ | .stray _ => []
  | .returnValue _ value => value.occurrences scopes
  | .conditional _ condition thenBlock otherwise =>
    condition.occurrences scopes ++ thenBlock.occurrences scopes [] ++
      otherwise.occurrences scopes
  | .loop _ condition body => condition.occurrences scopes ++ body.occurrences scopes []
  | .assignment id target value => ⟨.target id, target, scopes⟩ :: value.occurrences scopes

def ElseBranch.occurrences (scopes : List Visible) : ElseBranch → List Occurrence
  | .nothing => []
  | .block block => block.occurrences scopes []
  | .statement statement => statement.occurrences (⟨[], []⟩ :: scopes)

def Declaration.occurrences (scopes : List Visible) : Declaration → List Occurrence
  | .value _ _ _ _ initial => initial.occurrences scopes
  | .function _ _ parameters _ body =>
    body.occurrences scopes (parameters.filterMap Parameter.name?)
  | .classType _ _ parameters members =>
    let own := parameters.filterMap Parameter.name?
    let bound := own ++ members.flatMap Declaration.functionNames ++
      members.flatMap Declaration.valueNames
    Declaration.occurrencesOfAll (⟨bound, []⟩ :: scopes) members ++
      (own ++ members.flatMap Declaration.names).map
        fun name => ⟨.entry, name, ⟨bound, []⟩ :: scopes⟩
  | .stray _ => []

def Declaration.occurrencesOfAll (scopes : List Visible) : List Declaration → List Occurrence
  | [] => []
  | first :: rest => first.occurrences scopes ++ Declaration.occurrencesOfAll scopes rest

end

mutual

def Expression.Distinct : Expression → Prop
  | .binary _ _ left right => left.Distinct ∧ right.Distinct
  | .unary _ _ operand => operand.Distinct
  | .call _ callee arguments => callee.Distinct ∧ Expression.AllDistinct arguments
  | .member _ object _ => object.Distinct
  | .lambda _ parameters _ body => DistinctParameters parameters ∧ body.Distinct
  | .number _ _ | .string _ _ | .boolean _ _ | .unit _ | .identifier _ _ | .stray _ => True

def Expression.AllDistinct : List Expression → Prop
  | [] => True
  | first :: rest => first.Distinct ∧ Expression.AllDistinct rest

def LambdaBody.Distinct : LambdaBody → Prop
  | .expression body => body.Distinct
  | .block body => body.Distinct

def Block.Distinct : Block → Prop
  | .statements _ statements => Statement.AllDistinct statements
  | .stray _ => True

def Statement.AllDistinct : List Statement → Prop
  | [] => True
  | first :: rest => first.Distinct ∧ Statement.AllDistinct rest

def Statement.Distinct : Statement → Prop
  | .declaration declared => declared.Distinct
  | .expression _ expression => expression.Distinct
  | .returnNothing _ | .stray _ => True
  | .returnValue _ value => value.Distinct
  | .conditional _ condition thenBlock otherwise =>
    condition.Distinct ∧ thenBlock.Distinct ∧ otherwise.Distinct
  | .loop _ condition body => condition.Distinct ∧ body.Distinct
  | .assignment _ _ value => value.Distinct

def ElseBranch.Distinct : ElseBranch → Prop
  | .nothing => True
  | .block block => block.Distinct
  | .statement statement => statement.Distinct

def Declaration.Distinct : Declaration → Prop
  | .value _ _ _ _ initial => initial.Distinct
  | .function _ _ parameters _ body => DistinctParameters parameters ∧ body.Distinct
  | .classType _ _ parameters members =>
    DistinctParameters parameters ∧ Declaration.AllDistinct members
  | .stray _ => True

def Declaration.AllDistinct : List Declaration → Prop
  | [] => True
  | first :: rest => first.Distinct ∧ Declaration.AllDistinct rest

end

/-- The names of a module, those of functions and classes first. -/
def SourceFile.names (file : SourceFile) : List String :=
  file.declarations.flatMap Declaration.functionNames ++
    (file.imports.map Import.bindingName ++ file.declarations.flatMap Declaration.valueNames)

def SourceFile.occurrences (file : SourceFile) : List Occurrence :=
  Declaration.occurrencesOfAll [⟨file.names, []⟩] file.declarations

end Toolshed
