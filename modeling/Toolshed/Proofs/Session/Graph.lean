import Mathlib.Data.List.Nodup
import Mathlib.Logic.Relation
import Toolshed.Session

namespace Toolshed

/-!
# The import graph

Modules are checked one after another, each against the interfaces of those of its
imports that were compiled before it.
-/

def Descends {α : Type} (leads : α → α → Prop) (order : List α) : Prop :=
  ∀ later first earlier,
    order = later ++ first :: earlier →
    ∀ second, leads first second → second ∈ earlier

namespace Descends

variable {α : Type} {leads : α → α → Prop} {order : List α} {first second : α}

theorem nil : Descends leads [] := by
  intro later first earlier impossible
  simp at impossible

theorem cons (descends : Descends leads order)
    (start : ∀ second, leads first second → second ∈ order) : Descends leads (first :: order) := by
  intro later other earlier split second isLed
  cases later with
  | nil =>
    obtain ⟨rfl, rfl⟩ := List.cons.inj split
    exact start second isLed
  | cons _ later =>
    obtain ⟨_, rest⟩ := List.cons.inj split
    exact descends later other earlier rest second isLed

variable (descends : Descends leads order)
include descends

theorem mem_of_transGen {later earlier : List α}
    (split : order = later ++ first :: earlier) (path : Relation.TransGen leads first second) :
    second ∈ earlier := by
  induction path with
  | single step => exact descends later first earlier split _ step
  | @tail middle _ _ step ih =>
    obtain ⟨between, rest, divided⟩ := List.append_of_mem ih
    have further : order = (later ++ first :: between) ++ middle :: rest := by
      rw [split, divided, List.append_assoc, List.cons_append]
    rw [divided]
    exact List.mem_append_right _
      (List.mem_cons_of_mem _ (descends _ _ _ further _ step))

theorem mem_of_reflTransGen (member : first ∈ order)
    (path : Relation.ReflTransGen leads first second) : second ∈ order := by
  obtain ⟨later, earlier, split⟩ := List.append_of_mem member
  rcases Relation.reflTransGen_iff_eq_or_transGen.mp path with rfl | path
  · exact member
  · rw [split]
    exact List.mem_append_right _ (List.mem_cons_of_mem _ (descends.mem_of_transGen split path))

theorem not_transGen_self (nodup : order.Nodup)
    (member : first ∈ order) : ¬Relation.TransGen leads first first := by
  intro cycle
  obtain ⟨later, earlier, split⟩ := List.append_of_mem member
  have again := descends.mem_of_transGen split cycle
  rw [split] at nodup
  exact (List.nodup_cons.mp (List.nodup_append.mp nodup).2.1).1 again

end Descends

namespace Library

/-- The tree of a module that has a text without lexical and grammatical faults. -/
def tree? (library : Library) (path : ModulePath) : Option SyntaxTree :=
  match library.read path with
  | .text text =>
    let scan := Token.scan text
    let parsed := SyntaxTree.parse scan.tokens
    if scan.diagnostics.isEmpty && parsed.success then some parsed.tree else none
  | _ => none

/-- The modules that a module imports, once for every import. -/
def importsOf (library : Library) (path : ModulePath) : List ModulePath :=
  match library.tree? path with
  | some tree => tree.imports.map Import.path
  | none => []

def Imports (library : Library) (importer imported : ModulePath) : Prop :=
  imported ∈ library.importsOf importer

/-- One module is another or imports it, directly or not. -/
def Reaches (library : Library) : ModulePath → ModulePath → Prop :=
  Relation.ReflTransGen library.Imports

def OnCycle (library : Library) (path : ModulePath) : Prop :=
  Relation.TransGen library.Imports path path

variable {library : Library} {importer imported path other : ModulePath} {tree : SyntaxTree}

theorem importsOf_eq (isTree : library.tree? path = some tree) :
    library.importsOf path = tree.imports.map Import.path := by
  unfold importsOf
  rw [isTree]

theorem imports_iff (isTree : library.tree? importer = some tree) :
    library.Imports importer imported ↔ ∃ entry ∈ tree.imports, entry.path = imported := by
  rw [Imports, importsOf_eq isTree, List.mem_map]

theorem Imports.isSome_tree? (imports : library.Imports importer imported) :
    (library.tree? importer).isSome = true := by
  unfold Imports importsOf at imports
  cases found : library.tree? importer with
  | none => simp [found] at imports
  | some tree => rfl

theorem transGen_readable (path : Relation.TransGen library.Imports importer imported)
    (readable : (library.tree? imported).isSome = true) :
    Relation.TransGen
      (fun first second => library.Imports first second ∧ (library.tree? second).isSome = true)
      importer imported := by
  induction path with
  | single step => exact .single ⟨step, readable⟩
  | tail _ step ih =>
    exact .tail (ih step.isSome_tree?) ⟨step, readable⟩

theorem OnCycle.isSome_tree? (onCycle : library.OnCycle path) :
    (library.tree? path).isSome = true := by
  obtain ⟨_, step, _⟩ := Relation.TransGen.head'_iff.mp onCycle
  exact step.isSome_tree?

end Library

/-- The check of a module. -/
structure ModuleCheck where
  path : ModulePath
  ready : Bool
  checked : Checked

namespace ModuleCheck

def compiled (entry : ModuleCheck) : Bool :=
  entry.ready && entry.checked.success

/-- The interface of a module among those that were compiled. -/
def interface? (checks : List ModuleCheck) (path : ModulePath) : Option TypeId :=
  (checks.find? fun entry => entry.path = path && entry.compiled).map (·.checked.interface)

/-- The registry that checks leave, the last of them first. -/
def registryAfter (start : Registry) : List ModuleCheck → Registry
  | [] => start
  | entry :: _ => entry.checked.registry

def interfaces (checks : List ModuleCheck) (imports : List Import) : Interfaces :=
  imports.filterMap fun entry =>
    (interface? checks entry.path).map fun interface => (entry.path, interface)

def next (context : Context) (start : Registry) (checks : List ModuleCheck) (path : ModulePath)
    (tree : SyntaxTree) : ModuleCheck :=
  { path := path
    ready := tree.imports.all fun entry => (interface? checks entry.path).isSome
    checked :=
      tree.check path context (registryAfter start checks) (interfaces checks tree.imports) }

end ModuleCheck

/-- Modules of a library are checked one after another, each once; the last check comes first. -/
inductive Library.Checks
    (library : Library)
    (context : Context)
    (start : Registry) :
    List ModuleCheck → Prop where
  | nothing : library.Checks context start []
  | next {checks : List ModuleCheck} {path : ModulePath} {tree : SyntaxTree} :
      library.Checks context start checks →
      library.tree? path = some tree →
      path ∉ checks.map ModuleCheck.path →
      library.Checks context start (ModuleCheck.next context start checks path tree :: checks)

def ModuleCheck.compiledPaths (checks : List ModuleCheck) : List ModulePath :=
  (checks.filter ModuleCheck.compiled).map ModuleCheck.path

namespace ModuleCheck

variable {checks : List ModuleCheck} {path : ModulePath}

theorem isSome_interface?_iff :
    (interface? checks path).isSome = true ↔ path ∈ compiledPaths checks := by
  simp only [interface?, Option.isSome_map, List.find?_isSome, Bool.and_eq_true,
    decide_eq_true_eq, compiledPaths, List.mem_map, List.mem_filter]
  constructor
  · rintro ⟨entry, member, same, compiled⟩
    exact ⟨entry, ⟨member, compiled⟩, same⟩
  · rintro ⟨entry, ⟨member, compiled⟩, same⟩
    exact ⟨entry, member, same, compiled⟩

theorem mem_of_mem_compiledPaths (member : path ∈ compiledPaths checks) :
    path ∈ checks.map ModuleCheck.path := by
  obtain ⟨entry, inside, rfl⟩ := List.mem_map.mp member
  exact List.mem_map_of_mem (List.mem_of_mem_filter inside)

theorem interface?_cons (entry : ModuleCheck) (earlier : List ModuleCheck) :
    interface? (entry :: earlier) path =
      if entry.path = path ∧ entry.compiled = true then some entry.checked.interface
      else interface? earlier path := by
  unfold interface?
  by_cases found : entry.path = path ∧ entry.compiled = true
  · simp [found]
  · simp only [not_and] at found
    by_cases same : entry.path = path
    · simp [found same]
    · simp [same]

theorem interface?_eq_none (isNew : path ∉ checks.map ModuleCheck.path) :
    interface? checks path = none := by
  have unseen : ¬(interface? checks path).isSome = true := by
    rw [isSome_interface?_iff]
    exact fun member => isNew (mem_of_mem_compiledPaths member)
  simpa using unseen

theorem compiledPaths_cons (entry : ModuleCheck) (earlier : List ModuleCheck) :
    compiledPaths (entry :: earlier) =
      if entry.compiled then entry.path :: compiledPaths earlier else compiledPaths earlier := by
  unfold compiledPaths
  rw [List.filter_cons]
  split <;> rfl

end ModuleCheck

namespace Library.Checks

open ModuleCheck

variable {library : Library} {context : Context} {start : Registry} {checks : List ModuleCheck}

variable (valid : library.Checks context start checks)
include valid

theorem nodup :
    (checks.map ModuleCheck.path).Nodup := by
  induction valid with
  | nothing => exact List.nodup_nil
  | next _ _ isNew ih => exact List.nodup_cons.mpr ⟨isNew, ih⟩

theorem nodup_compiledPaths :
    (compiledPaths checks).Nodup :=
  valid.nodup.sublist (List.filter_sublist.map _)

theorem isSome_tree? {path : ModulePath}
    (member : path ∈ checks.map ModuleCheck.path) : (library.tree? path).isSome = true := by
  induction valid with
  | nothing => simp at member
  | next _ isTree _ ih =>
    rcases List.mem_cons.mp member with rfl | member
    · exact Option.isSome_of_eq_some isTree
    · exact ih member

theorem descends_compiledPaths :
    Descends library.Imports (compiledPaths checks) := by
  induction valid with
  | nothing => exact .nil
  | @next checks path tree _ isTree _ ih =>
    rw [compiledPaths_cons]
    split
    · rename_i isCompiled
      refine ih.cons fun imported isImported => ?_
      have ready := (Bool.and_eq_true_iff.mp isCompiled).1
      obtain ⟨entry, member, rfl⟩ := (imports_iff isTree).mp isImported
      exact isSome_interface?_iff.mp (List.all_eq_true.mp ready entry member)
    · exact ih

end Library.Checks

/-- A module is read without a fault, and so is its check. -/
def Library.Clean (library : Library) (checks : List ModuleCheck) (path : ModulePath) : Prop :=
  (library.tree? path).isSome = true ∧
    ∃ entry ∈ checks, entry.path = path ∧ entry.checked.success = true

def Library.Faulty (library : Library) (checks : List ModuleCheck) (path : ModulePath) : Prop :=
  library.tree? path = none ∨
    (∃ entry ∈ checks, entry.path = path ∧ entry.checked.success = false) ∨ library.OnCycle path

/--
Latest first, modules are checked after the imports that can be read, except
where modules on a cycle close it.
-/
def Library.Ordered (library : Library) (closing : Prop) : List ModuleCheck → Prop
  | [] => True
  | entry :: earlier =>
    (∀ imported ∈ library.importsOf entry.path,
      (library.tree? imported).isSome = true →
      imported ∈ earlier.map ModuleCheck.path ∨ library.OnCycle entry.path ∧ closing) ∧
    library.Ordered closing earlier

namespace Library

open ModuleCheck

variable {library : Library} {context : Context} {start : Registry} {checks : List ModuleCheck}
variable {path : ModulePath} {closing : Prop}

theorem Ordered.imp {weaker : Prop} (ordered : library.Ordered closing checks)
    (implies : closing → weaker) : library.Ordered weaker checks := by
  induction checks with
  | nil => trivial
  | cons entry earlier ih =>
    refine ⟨fun imported isImported readable => ?_, ih ordered.2⟩
    exact (ordered.1 imported isImported readable).imp id fun ⟨onCycle, isClosing⟩ =>
      ⟨onCycle, implies isClosing⟩

variable (valid : library.Checks context start checks)
include valid

theorem Checks.eq_of_path_eq {first second : ModuleCheck}
    (isFirst : first ∈ checks)
    (isSecond : second ∈ checks) (same : first.path = second.path) : first = second :=
  List.inj_on_of_nodup_map valid.nodup isFirst isSecond same

theorem Checks.clean_of_compiled {other : ModulePath}
    (compiled : path ∈ compiledPaths checks)
    (reaches : library.Reaches path other) :
    library.Clean checks other ∧ ¬library.OnCycle other := by
  have isCompiled := valid.descends_compiledPaths.mem_of_reflTransGen compiled reaches
  refine ⟨⟨valid.isSome_tree? (mem_of_mem_compiledPaths isCompiled), ?_⟩,
    valid.descends_compiledPaths.not_transGen_self valid.nodup_compiledPaths isCompiled⟩
  obtain ⟨entry, member, same⟩ := List.mem_map.mp isCompiled
  obtain ⟨inside, compiled⟩ := List.mem_filter.mp member
  exact ⟨entry, inside, same, (Bool.and_eq_true_iff.mp compiled).2⟩

theorem Checks.success_of_clean {entry : ModuleCheck}
    (clean : library.Clean checks entry.path)
    (member : entry ∈ checks) : entry.checked.success = true := by
  obtain ⟨_, other, isOther, same, success⟩ := clean
  exact valid.eq_of_path_eq isOther member same ▸ success

theorem Checks.compiled_of_success
    (ordered : library.Ordered closing checks) (isChecked : path ∈ checks.map ModuleCheck.path)
    (faultless :
      ∀ other, library.Reaches path other →
        (library.tree? other).isSome = true ∧ ¬library.OnCycle other ∧
          ∀ entry ∈ checks, entry.path = other → entry.checked.success = true) :
    path ∈ compiledPaths checks := by
  induction valid generalizing path with
  | nothing => simp at isChecked
  | @next earlier current tree _ isTree _ ih =>
    obtain ⟨orderedFirst, orderedRest⟩ := ordered
    have compiledEarlier : ∀ path ∈ earlier.map ModuleCheck.path,
        (∀ other, library.Reaches path other →
          (library.tree? other).isSome = true ∧ ¬library.OnCycle other ∧
            ∀ entry ∈ ModuleCheck.next context start earlier current tree :: earlier,
              entry.path = other → entry.checked.success = true) →
        path ∈ compiledPaths earlier := by
      intro path member faultless
      refine ih orderedRest member fun other reaches => ?_
      obtain ⟨readable, noCycle, passes⟩ := faultless other reaches
      exact ⟨readable, noCycle, fun entry inside => passes entry (List.mem_cons_of_mem _ inside)⟩
    rw [compiledPaths_cons]
    rcases List.mem_cons.mp isChecked with isCurrent | inEarlier
    · obtain rfl : path = current := isCurrent
      obtain ⟨_, noCycle, passes⟩ := faultless path .refl
      have ready : (ModuleCheck.next context start earlier path tree).ready = true := by
        refine List.all_eq_true.mpr fun entry member => isSome_interface?_iff.mpr ?_
        have isImported := (imports_iff isTree).mpr ⟨entry, member, rfl⟩
        have below := fun other reaches =>
          faultless other (Relation.ReflTransGen.head isImported reaches)
        rcases orderedFirst _ isImported (below _ .refl).1 with before | ⟨onCycle, _⟩
        · exact compiledEarlier _ before below
        · exact (noCycle onCycle).elim
      have success := passes _ (List.mem_cons_self ..) rfl
      have isCompiled : (ModuleCheck.next context start earlier path tree).compiled = true :=
        Bool.and_eq_true_iff.mpr ⟨ready, success⟩
      rw [if_pos isCompiled]
      exact List.mem_cons_self ..
    · have isCompiled := compiledEarlier _ inEarlier faultless
      split
      · exact List.mem_cons_of_mem _ isCompiled
      · exact isCompiled

theorem Checks.compiled_iff
    (ordered : library.Ordered closing checks) (isChecked : path ∈ checks.map ModuleCheck.path) :
    path ∈ compiledPaths checks ↔
      ∀ other, library.Reaches path other →
        library.Clean checks other ∧ ¬library.OnCycle other := by
  refine ⟨fun compiled other reaches => valid.clean_of_compiled compiled reaches, fun clean => ?_⟩
  refine valid.compiled_of_success ordered isChecked fun other reaches => ?_
  obtain ⟨isClean, noCycle⟩ := clean other reaches
  refine ⟨isClean.1, noCycle, ?_⟩
  rintro entry member rfl
  exact valid.success_of_clean isClean member

theorem Checks.closing_of_onCycle
    (ordered : library.Ordered closing checks) (isChecked : path ∈ checks.map ModuleCheck.path)
    (onCycle : library.OnCycle path) : closing := by
  by_contra notClosing
  have descends : Descends
      (fun first second => library.Imports first second ∧ (library.tree? second).isSome = true)
      (checks.map ModuleCheck.path) := by
    clear isChecked onCycle valid
    induction checks with
    | nil => exact .nil
    | cons entry earlier ih =>
      refine (ih ordered.2).cons ?_
      rintro imported ⟨isImported, readable⟩
      exact (ordered.1 imported isImported readable).resolve_right fun found =>
        notClosing found.2
  exact descends.not_transGen_self valid.nodup isChecked
    (transGen_readable onCycle onCycle.isSome_tree?)

theorem Checks.not_clean_of_faulty
    (faulty : library.Faulty checks path) :
    ¬(library.Clean checks path ∧ ¬library.OnCycle path) := by
  rintro ⟨clean, noCycle⟩
  rcases faulty with unread | ⟨entry, member, rfl, failed⟩ | onCycle
  · have readable := clean.1
    rw [unread] at readable
    exact Bool.noConfusion readable
  · rw [valid.success_of_clean clean member] at failed
    exact Bool.noConfusion failed
  · exact noCycle onCycle

end Library

end Toolshed
