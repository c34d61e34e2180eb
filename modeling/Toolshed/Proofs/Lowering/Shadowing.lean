import Toolshed.Proofs.Grammar.SourceFile
import Toolshed.Proofs.Lowering.ModuleBinding
import Toolshed.Session

namespace Toolshed

/-!
# Names that are declared again later

A module without faults keeps its bindings in the script, except where a block
declares a name again after a use of it.
-/

variable {items rest : List Item}

theorem Parameter.ListSpelled.distinct {items rest : List Item} {parameters : List Parameter}
    (spelled : Parameter.ListSpelled items parameters rest) : DistinctParameters parameters := by
  cases spelled with
  | nothing => exact List.nodup_nil
  | something _ _ _ distinct => exact distinct

mutual

theorem Expression.Spelled.distinct
    {level : Nat}
    {items rest : List Item}
    {expression : Expression} :
    expression.Spelled level items rest → expression.Distinct
  | .unary spelled => spelled.distinct
  | .tighter spelled => spelled.distinct
  | .binary _ left _ _ right => ⟨left.distinct, right.distinct⟩

theorem Expression.UnarySpelled.distinct
    {items rest : List Item}
    {expression : Expression} :
    expression.UnarySpelled items rest → expression.Distinct
  | .operator _ operand => operand.distinct
  | .operand spelled => spelled.distinct

theorem Expression.PostfixSpelled.distinct
    {items rest : List Item}
    {expression : Expression} :
    expression.PostfixSpelled items rest → expression.Distinct
  | .primary spelled => spelled.distinct
  | .call callee _ _ arguments _ => ⟨callee.distinct, arguments.distinct⟩
  | .member object _ _ _ => object.distinct

theorem Expression.PrimarySpelled.distinct
    {items rest : List Item}
    {expression : Expression} :
    expression.PrimarySpelled items rest → expression.Distinct
  | .number _ _ | .string _ | .trueWord _ | .falseWord _ | .unit _ _ | .identifier _ => trivial
  | .parenthesised _ spelled _ => spelled.distinct
  | .lambda _ parameters _ body => ⟨parameters.distinct, body.distinct⟩

theorem Expression.ListSpelled.distinct
    {items rest : List Item}
    {expressions : List Expression} :
    Expression.ListSpelled items expressions rest → Expression.AllDistinct expressions
  | .nothing => trivial
  | .something spelled => spelled.distinct

theorem Expression.AllSpelled.distinct
    {items rest : List Item}
    {expressions : List Expression} :
    Expression.AllSpelled items expressions rest → Expression.AllDistinct expressions
  | .last spelled => ⟨spelled.distinct, trivial⟩
  | .more spelled _ others => ⟨spelled.distinct, others.distinct⟩

theorem LambdaBody.Spelled.distinct
    {items rest : List Item}
    {body : LambdaBody} :
    body.Spelled items rest → body.Distinct
  | .expression _ spelled => spelled.distinct
  | .block spelled => spelled.distinct

theorem Block.Spelled.distinct
    {items rest : List Item}
    {block : Block} :
    block.Spelled items rest → block.Distinct
  | .braces _ spelled _ => spelled.distinct

theorem Statement.AllSpelled.distinct
    {items rest : List Item}
    {statements : List Statement} :
    Statement.AllSpelled items statements rest → Statement.AllDistinct statements
  | .nothing => trivial
  | .more spelled others => ⟨spelled.distinct, others.distinct⟩

theorem Statement.Spelled.distinct
    {items rest : List Item}
    {statement : Statement} :
    statement.Spelled items rest → statement.Distinct
  | .declaration spelled => spelled.distinct
  | .returnNothing _ _ => trivial
  | .returnValue _ _ spelled _ => spelled.distinct
  | .conditional _ condition thenBlock otherwise =>
    ⟨condition.distinct, thenBlock.distinct, otherwise.distinct⟩
  | .loop _ condition body => ⟨condition.distinct, body.distinct⟩
  | .assignment _ _ spelled _ => spelled.distinct
  | .expression spelled _ => spelled.distinct

theorem ElseBranch.Spelled.distinct
    {items rest : List Item}
    {branch : ElseBranch} :
    branch.Spelled items rest → branch.Distinct
  | .nothing => trivial
  | .block _ spelled => spelled.distinct
  | .conditional _ _ spelled => spelled.distinct

theorem Declaration.Spelled.distinct
    {items rest : List Item}
    {declared : Declaration} :
    declared.Spelled items rest → declared.Distinct
  | .letValue _ _ _ _ initial _ => initial.distinct
  | .varValue _ _ _ _ initial _ => initial.distinct
  | .function _ _ parameters _ body => ⟨parameters.distinct, body.distinct⟩

end

theorem Declaration.MembersSpelled.distinct {members : List Declaration}
    (spelled : Declaration.MembersSpelled items members rest) :
    Declaration.AllDistinct members := by
  induction spelled with
  | nothing => trivial
  | more first _ ih => exact ⟨first.distinct, ih⟩

theorem Declaration.TopSpelled.distinct {declared : Declaration}
    (spelled : declared.TopSpelled items rest) : declared.Distinct := by
  cases spelled with
  | member spelled => exact spelled.distinct
  | classType _ _ parameters body =>
    refine ⟨parameters.distinct, ?_⟩
    cases body with
    | nothing => trivial
    | braces _ members _ => exact members.distinct

theorem Declaration.AllTopSpelled.distinct {declarations : List Declaration}
    (spelled : Declaration.AllTopSpelled items declarations rest) :
    Declaration.AllDistinct declarations := by
  induction spelled with
  | nothing => trivial
  | more first _ ih => exact ⟨first.distinct, ih⟩

/--
Every use of a name in a module without faults becomes a use in its script, and
the script means the declaration that the check has found exactly if no block in
between declares the name after the use. For a name of the host, no block around
the use may do so.
-/
theorem SyntaxTree.binds_lower_iff
    {text : String}
    {tree : SyntaxTree}
    {linkage : Linkage}
    {registry : Registry}
    (path : ModulePath)
    (profile : Profile)
    (start : Registry)
    (interfaces : Interfaces)
    (builtin : linkage.Builtin)
    (sound : registry.Sound)
    (faultless : SyntaxTree.parse (Token.scan text).tokens = ⟨tree, []⟩)
    (success : (tree.check path (profile.seed start).2 registry interfaces).success = true) :
    ∃ script before found after,
      tree.lower linkage .none path
          (tree.check path (profile.seed start).2 registry interfaces).resolutions =
        .ok script ∧
      Script.references script = before ++ found ++ after ∧
      List.Forall₂
        (Binds (tree.check path (profile.seed start).2 registry interfaces).resolutions)
        tree.sourceFile.occurrences found := by
  have proper := SyntaxTree.parse_proper (Token.declarableNames_scan text)
  have spelled := SyntaxTree.spelled_significant (Token.scan text).tokens (by rw [faultless])
  rw [faultless] at proper spelled
  obtain ⟨_, _, declarations⟩ := spelled
  exact proper.binds_lower declarations.distinct builtin (profile.hostOnly_seed start) sound success

def shadowingText : String :=
  "let x = 1\nfun f(): Number \x7b\n    let x = x + 1\n    return x\n\x7d\n"

def SyntaxTree.shadowing : SyntaxTree :=
  (SyntaxTree.parse (Token.scan shadowingText).tokens).tree

def Checked.shadowing : Checked :=
  SyntaxTree.shadowing.check Compiler.snippet (Profile.default.seed .initial).2
    (Profile.default.seed .initial).1 []

theorem SyntaxTree.binds_lower_iff_shadowing :
    Checked.shadowing.success = true ∧
      ∃ script before found after,
        SyntaxTree.shadowing.lower Target.browser.linkage .none Compiler.snippet
            Checked.shadowing.resolutions =
          .ok script ∧
        Script.references script = before ++ found ++ after ∧
        List.Forall₂ (Binds Checked.shadowing.resolutions)
          SyntaxTree.shadowing.sourceFile.occurrences found := by
  have faultless : SyntaxTree.parse (Token.scan shadowingText).tokens =
      ⟨SyntaxTree.shadowing, []⟩ := by
    have nothing : (SyntaxTree.parse (Token.scan shadowingText).tokens).diagnostics = [] := by
      decide +kernel
    rw [← nothing]
    rfl
  have success : Checked.shadowing.success = true := by decide +kernel
  exact ⟨success, SyntaxTree.binds_lower_iff Compiler.snippet .default .initial []
    Target.browser.builtin_linkage (Profile.sound_seed .default Registry.sound_initial)
    faultless success⟩

/--
The module means its own value by the first `x` of the function, which the
script takes for the new value of the function.
-/
theorem SyntaxTree.rebound_shadowing :
    SyntaxTree.shadowing.sourceFile.occurrences.map
        (fun occurrence => (occurrence.name, occurrence.binder?)) =
      [("x", some (1, 1)), ("x", some (0, 0))] ∧
    (SyntaxTree.shadowing.lower ⟨.browser, .bare⟩ .none Compiler.snippet
        Checked.shadowing.resolutions).toOption.map
        (fun script => (Script.references script).map
          fun reference => (reference.name, reference.binder?)) =
      some [("x", some (0, 0)), ("x", some (0, 0))] := by
  decide +kernel

end Toolshed
