import Toolshed.Proofs.Lowering.Shadowing

namespace Toolshed

/-!
# Scripts of modules load

In the script of a module without faults scopes bind free names once, and every
name that is used is bound or known to be there.
-/

/-- The names that a way of tying modules together uses by itself. -/
def Linkage.ownNames (linkage : Linkage) (path : ModulePath) : List String :=
  ((linkage.importStyle "" path path).references [] ++
    Script.statementReferences [] (linkage.wrapper path [] [])).map Script.Reference.name

namespace Linkage.Builtin

variable {linkage : Linkage} {fixed : List String} {bound : List String}

attribute [local simp] Script.Expression.references Script.Statement.references

theorem wellScoped_import (builtin : linkage.Builtin) (path imported : ModulePath) (name : String)
    (areFixed : linkage.ownNames path ⊆ fixed) :
    (linkage.importStyle name path imported).WellScoped fixed bound := by
  unfold ownNames at areFixed
  rcases builtin.importStyle with style | style <;> rw [style] at areFixed ⊢
  · have isFixed : Script.headName "SHED.importModule" ∈ fixed := areFixed <| by
      simp [ImportStyle.browser, ImportStyle.bindingTo, Script.references_path]
    simp only [ImportStyle.browser, ImportStyle.bindingTo, Script.Statement.WellScoped,
      Script.Expression.WellScoped, Script.ExpressionsWellScoped, and_true]
    exact @Script.wellScoped_path fixed bound "SHED.importModule" isFixed
  · have isFixed : "require" ∈ fixed := areFixed <| by
      simp [ImportStyle.commonJs, ImportStyle.bindingTo]
    exact ⟨.inr isFixed, trivial, trivial⟩

theorem wellScoped_imports (builtin : linkage.Builtin) (path : ModulePath) (found : List Import)
    (areFixed : linkage.ownNames path ⊆ fixed) :
    Script.WellScoped fixed bound (Lowering.imports linkage.importStyle path found) := by
  induction found with
  | nil => trivial
  | cons first rest ih =>
    exact ⟨builtin.wellScoped_import path _ _ areFixed, ih⟩

theorem loads_wrapper {body : List Script.Statement} {entries : List Script.Property}
    (builtin : linkage.Builtin) (path : ModulePath) (areFixed : linkage.ownNames path ⊆ fixed)
    (wellBody : Script.Loads fixed body)
    (wellEntries : Script.PropertiesWellScoped fixed (Script.declaredNames body) entries) :
    Script.Loads fixed (linkage.wrapper path body entries) := by
  obtain ⟨bindable, well⟩ := wellBody
  rw [List.append_nil] at well
  unfold ownNames at areFixed
  rcases builtin.wrapper with wrapper | wrapper | wrapper <;> rw [wrapper] at areFixed ⊢
  · have isFixed : Script.headName "SHED.exportModule" ∈ fixed := areFixed <| by
      simp [Wrapper.browser, Script.statementReferences, Script.references_path]
    have declares : Script.declaredNames (body ++ [.returnValue (.object entries)]) =
        Script.declaredNames body := Script.declaredNames_concat body rfl rfl
    have declaresNothing (call : Script.Expression) :
        Script.declaredNames [.expression call] = [] := rfl
    have wellReturn : Script.WellScoped fixed (Script.declaredNames body)
        [.returnValue (.object entries)] := ⟨wellEntries, trivial⟩
    simp only [Script.Loads, Script.BlockWellScoped, Wrapper.browser, declaresNothing,
      Script.WellScoped, Script.Statement.WellScoped, Script.Expression.WellScoped,
      Script.ExpressionsWellScoped, Script.Function.ownNames, Option.toList_none,
      Script.Function.WellScoped, declares, List.append_nil, and_true, true_and]
    exact ⟨.nil, @Script.wellScoped_path fixed [] "SHED.exportModule" isFixed, .nil, bindable,
      Script.wellScoped_append.mpr ⟨well, wellReturn⟩⟩
  · have isFixed : "module.exports" ∈ fixed := areFixed <| by
      simp [Wrapper.commonJs, Script.statementReferences]
    have declares : Script.declaredNames
          (body ++ [.expression (.assignment "module.exports" (.object entries))]) =
        Script.declaredNames body := Script.declaredNames_concat body rfl rfl
    unfold Script.Loads Script.BlockWellScoped Wrapper.commonJs
    rw [declares, List.append_nil]
    exact ⟨bindable, Script.wellScoped_append.mpr ⟨well, ⟨.inr isFixed, wellEntries⟩, trivial⟩⟩
  · unfold Script.Loads Script.BlockWellScoped Wrapper.bare
    rw [List.append_nil]
    exact ⟨bindable, well⟩

end Linkage.Builtin

/--
A host loads the script of every module that is read and checked without a
fault, tied to others in any built-in way and at any level: the script uses no
names but its own, those of the profile and those of the way of tying modules
together.
-/
theorem SyntaxTree.lower_loads {text : String} {tree : SyntaxTree} {linkage : Linkage}
    {registry : Registry} (level : Level) (path : ModulePath) (profile : Profile)
    (start : Registry) (interfaces : Interfaces) (builtin : linkage.Builtin)
    (sound : registry.Sound)
    (faultless : SyntaxTree.parse (Token.scan text).tokens = ⟨tree, []⟩)
    (success : (tree.check path (profile.seed start).2 registry interfaces).success = true) :
    ∃ script,
      tree.lower linkage level path
          (tree.check path (profile.seed start).2 registry interfaces).resolutions = .ok script ∧
        Script.Loads ((profile.seed start).2.hostHeads ++ linkage.ownNames path) script := by
  have proper := SyntaxTree.parse_proper (Token.declarableNames_scan text)
  have spelled := SyntaxTree.spelled_significant (Token.scan text).tokens (by rw [faultless])
  rw [faultless] at proper spelled
  obtain ⟨_, _, declarations⟩ := spelled
  have typed := proper.check_typed sound success
  have clean := proper.sourceFile_clean
  obtain ⟨body, isBody⟩ := Lowering.succeeds_declarations clean.declarations typed.declarations
  let fixed := (profile.seed start).2.hostHeads ++ linkage.ownNames path
  have hostOnly := profile.hostOnly_seed start
  have around : Scoped fixed _ [tree.sourceFile.names.map Script.nameOf] _ :=
    typed.around hostOnly (hostOnly.hostedBy.mono (List.subset_append_left _ _)) clean (by simp)
  have areFixed : linkage.ownNames path ⊆ fixed := List.subset_append_right _ _
  have isNames := Lowering.declaredNames_module builtin path isBody
  have loads : Script.Loads fixed
      (Lowering.imports linkage.importStyle path tree.sourceFile.imports ++ body) := by
    unfold Script.Loads Script.BlockWellScoped
    rw [isNames]
    exact ⟨Script.bindable_nameOf typed.nodup_names (SourceFile.allowed_names clean),
      Script.wellScoped_append.mpr ⟨builtin.wellScoped_imports path _ areFixed,
        (Lowering.binds_declarations clean.declarations declarations.distinct typed.declarations
          around isBody).2⟩⟩
  have wellEntries : Script.PropertiesWellScoped fixed
      (Script.declaredNames
        (Lowering.imports linkage.importStyle path tree.sourceFile.imports ++ body))
      (tree.sourceFile.declarations.filterMap Lowering.export?) := by
    rw [isNames]
    refine Lowering.wellScoped_exports fun name member => List.mem_map_of_mem ?_
    exact tree.sourceFile.names_perm.mem_iff.mp (List.mem_append_right _ member)
  have wrapped := builtin.loads_wrapper path areFixed loads wellEntries
  refine ⟨_, lower_eq level path isBody, ?_⟩
  cases level with
  | none => exact wrapped
  | simple => exact wrapped.simplify

def takenText : String :=
  "class window(new: Number) \x7b\n    var eval = new\n\x7d\nlet delete = window(1).eval\n" ++
    "let console = print\n"

def SyntaxTree.taken : SyntaxTree :=
  (SyntaxTree.parse (Token.scan takenText).tokens).tree

def Checked.taken : Checked :=
  SyntaxTree.taken.check Compiler.snippet (Profile.browser.seed .initial).2
    (Profile.browser.seed .initial).1 []

theorem SyntaxTree.lower_loads_taken :
    Checked.taken.success = true ∧
      ∃ script,
        SyntaxTree.taken.lower Target.commonJs.linkage .simple Compiler.snippet
            Checked.taken.resolutions =
          .ok script ∧
        Script.Loads
          ((Profile.browser.seed .initial).2.hostHeads ++
            Target.commonJs.linkage.ownNames Compiler.snippet) script := by
  have faultless : SyntaxTree.parse (Token.scan takenText).tokens = ⟨SyntaxTree.taken, []⟩ := by
    have nothing : (SyntaxTree.parse (Token.scan takenText).tokens).diagnostics = [] := by
      decide +kernel
    rw [← nothing]
    rfl
  have success : Checked.taken.success = true := by decide +kernel
  exact ⟨success, SyntaxTree.lower_loads .simple Compiler.snippet .browser .initial []
    Target.commonJs.builtin_linkage (Profile.sound_seed .browser Registry.sound_initial)
    faultless success⟩

end Toolshed
