import Toolshed.Grammar.SourceFile
import Toolshed.Proofs.Typing.ModuleTyped
import Toolshed.Token.Scan
import Toolshed.Typing.Profile

namespace Toolshed

/-!
# Checked modules

What the check of a whole module answers: faults that can be shown, a registry
that later modules can build on and, if no fault is found, typed code.
-/

def CheckState.start (context : Context) (registry : Registry) : CheckState :=
  { registry := registry
    context := context.push .moduleBody
    diagnostics := []
    types := .empty
    resolutions := .empty
    classes := .empty
    declared := []
    denotations := .empty
    units := []
    uses := [] }

theorem CheckState.regular_start {context : Context} {registry : Registry}
    (sound : registry.Sound) : (CheckState.start context registry).Regular :=
  ⟨sound, fun id type found => by simp [start, Table.get?, Table.empty] at found⟩

namespace SyntaxTree

variable {allowed : String → Prop}
variable (tree : SyntaxTree) (path : ModulePath) (context : Context) (registry : Registry)
variable (interfaces : Interfaces)

def checkEnd : CheckState :=
  Check.stateAfter (Check.sourceFile tree.arena path interfaces tree.sourceFile)
    (.start context registry)

theorem check_eq :
    tree.check path context registry interfaces =
      { diagnostics := (tree.checkEnd path context registry interfaces).diagnostics
        types := (tree.checkEnd path context registry interfaces).types
        resolutions := (tree.checkEnd path context registry interfaces).resolutions
        interface :=
          Check.answer (Check.sourceFile tree.arena path interfaces tree.sourceFile)
            (.start context registry)
        registry := (tree.checkEnd path context registry interfaces).registry } :=
  rfl

variable {tree path context registry interfaces}

namespace Proper

variable (proper : tree.Proper allowed)
include proper

theorem trace_check :
    Check.Trace tree.sourceFile.ids (.start context registry)
      (tree.checkEnd path context registry interfaces) := by
  obtain ⟨_, _, _, _, _, _, passes, _⟩ :=
    Check.exists_passes tree.arena path interfaces tree.sourceFile (.start context registry)
  exact (passes.passed proper.sourceFile_clean).trace

theorem check_atNode :
    ∀ diagnostic ∈ (tree.check path context registry interfaces).diagnostics,
      diagnostic.AtNode tree.arena.locations.size := by
  have start : (CheckState.start context registry).Placed tree.arena.locations.size :=
    ⟨by simp [CheckState.start], by simp [CheckState.start]⟩
  exact (proper.trace_check.placed _ (fun _ => proper.lt_size_of_mem_ids) start).diagnostics

theorem check_inText :
    ∀ diagnostic ∈ (tree.check path context registry interfaces).diagnostics,
      diagnostic.InText tree.arena.locations.size :=
  fun diagnostic member => (proper.check_atNode diagnostic member).inText

theorem check_located :
    ∀ diagnostic ∈ (tree.check path context registry interfaces).diagnostics,
      diagnostic.Located tree.arena.locations.size :=
  fun diagnostic member => (proper.check_inText diagnostic member).located

theorem check_sound (sound : registry.Sound) :
    (tree.check path context registry interfaces).registry.Sound :=
  proper.trace_check.sound sound

theorem check_typed (sound : registry.Sound)
    (success : (tree.check path context registry interfaces).success = true) :
    ModuleTyped (tree.checkEnd path context registry interfaces) context
      (tree.checkEnd path context registry interfaces).context interfaces tree.sourceFile
      (tree.check path context registry interfaces).interface := by
  obtain ⟨_, _, _, _, _, _, passes, interface⟩ :=
    Check.exists_passes tree.arena path interfaces tree.sourceFile (.start context registry)
  have silent : (tree.checkEnd path context registry interfaces).diagnostics = [] :=
    List.isEmpty_iff.mp success
  have typed := passes.moduleTyped proper.sourceFile_clean rfl rfl (CheckState.regular_start sound)
    silent (Check.Later.refl _) List.prefix_rfl
  rw [← interface] at typed
  exact typed

end Proper

/-- A function that calls itself is blamed for its own local value. -/
theorem check_recursive_early :
    ((SyntaxTree.parse (Token.scan
        "fun f() \x7b\n    let r = f()\n    r\n\x7d\n").tokens).tree.check
      ⟨["m"]⟩ (Profile.browser.seed .initial).2 (Profile.browser.seed .initial).1 []).diagnostics =
      [⟨.usedEarlyThrough "r" "f", .node 0⟩] := by
  decide +kernel

/-- A member of a class may use one that comes after it. -/
def earlyMember : SyntaxTree :=
  (SyntaxTree.parse (Token.scan
    "class C() \x7b\n    let a: Number = b\n    let b: Number = 1\n\x7d\n").tokens).tree

theorem check_member_early :
    (earlyMember.check ⟨["m"]⟩ (Profile.browser.seed .initial).2
      (Profile.browser.seed .initial).1 []).success = true := by
  decide +kernel

end SyntaxTree

end Toolshed
