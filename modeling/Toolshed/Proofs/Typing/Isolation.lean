import Toolshed.Proofs.Typing.NoUnknown
import Toolshed.Proofs.Typing.Pairing

namespace Toolshed

/-!
# Modules that were checked before

All modules of a compilation share a registry.
-/

open Likeness (Alike)

variable {pairing wider : Pairing} {type image : TypeId}

namespace Check

theorem agree_sourceFile (arena : Arena) (path : ModulePath)
    {interfaces madeInterfaces : Interfaces} {file : SourceFile}
    (alike :
      ∀ entry ∈ file.imports,
        Alike pairing (interfaces.lookup entry.path) (madeInterfaces.lookup entry.path)) :
    Agree pairing (sourceFile arena path interfaces file)
      (sourceFile arena path madeInterfaces file) := by
  have clean : False → CleanDeclarations (fun _ => True) file.declarations := False.elim
  exact .next (agree_declareImports file.imports fun entry member =>
      Paired.getD (alike entry member) (pairing.basic _ List.mem_cons_self)) fun _ _ =>
    .next (portable_declareNames file.declarations) fun _ _ =>
      .next (portable_declareTypes file.declarations clean) fun _ _ =>
        .next (portable_initialValues file.declarations clean) fun _ _ =>
          .next (portable_bodies file.declarations clean) fun _ _ =>
            .next portable_order fun _ _ _ _ states => agree_interface states False.elim

end Check

namespace Profile

variable (profile : Profile)

def ownPairing : Pairing where
  types := fun type image => type = image ∧ type.index < profile.registry.size
  objects := fun id image => id = image ∧ id.index < profile.registry.objects.size
  basic := by cases profile <;> decide +kernel
  types_iff := by
    rintro _ _ _ _ ⟨rfl, _⟩ ⟨rfl, _⟩
    rfl
  objects_iff := by
    rintro _ _ _ _ ⟨rfl, _⟩ ⟨rfl, _⟩
    rfl

theorem alike_seed :
    (profile.seed .initial).2.Alike profile.ownPairing (profile.seed .initial).2 := by
  have scope : (profile.seed .initial).2.innermost.kind = .global ∧
      (profile.seed .initial).2.outer = [] := by
    cases profile <;> decide +kernel
  refine ⟨⟨by rw [scope.1]; exact ⟨.none, rfl⟩,
    List.forall₂_same.mpr fun entry member => ⟨rfl, ?_, rfl, rfl⟩⟩, by rw [scope.2]; exact .nil⟩
  cases isType : entry.2.type with
  | none => exact .none
  | some type =>
    exact .some ⟨rfl, (profile.bindings_seed _ List.mem_cons_self entry member type isType).2⟩

theorem alike_registry {left right : Registry} (continues : profile.registry.Continues left)
    (otherContinues : profile.registry.Continues right) (ordered : Registry.Ordered left.shapes)
    (otherOrdered : Registry.Ordered right.shapes) : left.Alike profile.ownPairing right := by
  have shapes : ∀ shape ∈ profile.registry.shapes, shape.Alike profile.ownPairing shape := by
    rw [shapes_registry]
    have typeName {type : TypeId} (inside : type.index < profile.registry.size) :
        Shape.Alike profile.ownPairing (.typeName type) (.typeName type) := .typeName ⟨rfl, inside⟩
    have function {type result : TypeId} (inside : type.index < profile.registry.size)
        (resultInside : result.index < profile.registry.size) :
        Shape.Alike profile.ownPairing (.function [type] result) (.function [type] result) :=
      .function (.cons ⟨rfl, inside⟩ .nil) ⟨rfl, resultInside⟩
    cases profile with
    | default =>
      simp only [Profile.shapes, List.mem_toArray, List.cons_append, List.forall_mem_cons]
      exact ⟨.unknown, .number, .string, .boolean, .unit, typeName (by decide),
        typeName (by decide), typeName (by decide), typeName (by decide),
        function (by decide) (by decide), function (by decide) (by decide), by simp⟩
    | browser =>
      simp only [Profile.shapes, List.mem_toArray, List.cons_append, List.nil_append,
        List.forall_mem_cons]
      exact ⟨.unknown, .number, .string, .boolean, .unit, typeName (by decide),
        typeName (by decide), typeName (by decide), typeName (by decide),
        function (by decide) (by decide), function (by decide) (by decide),
        .object ⟨rfl, by decide⟩, by simp⟩
  have objects : ∀ object ∈ profile.registry.objects, Alike profile.ownPairing object object := by
    rw [objects_registry]
    cases profile with
    | default => simp [Profile.objects]
    | browser =>
      simp only [Profile.objects, List.mem_toArray, List.forall_mem_singleton]
      exact ⟨rfl, rfl, .cons ⟨rfl, .some ⟨rfl, by decide⟩, rfl⟩ .nil, .none⟩
  refine ⟨?_, ?_, ordered, otherOrdered⟩
  · rintro ⟨index⟩ _ ⟨rfl, inside⟩
    obtain ⟨shape, found⟩ : ∃ shape, profile.registry.shape? ⟨index⟩ = some shape :=
      ⟨_, Array.getElem?_eq_getElem inside⟩
    exact ⟨shape, shape, Registry.shape?_of_longer continues.shapes found,
      Registry.shape?_of_longer otherContinues.shapes found,
      shapes shape (Array.mem_of_getElem? found)⟩
  · rintro id _ ⟨rfl, inside⟩
    obtain ⟨object, found⟩ : ∃ object, profile.registry.objects[id.index]? = some object :=
      ⟨_, Array.getElem?_eq_getElem inside⟩
    have kept {larger : Registry} (continues : profile.registry.Continues larger) :
        larger.objects[id.index]? = some object := by
      obtain ⟨more, same⟩ := continues.objects
      rw [← Array.getElem?_toList] at found ⊢
      rw [← same, List.getElem?_append_left inside, found]
    exact ⟨object, object, kept continues, kept otherContinues,
      objects object (Array.mem_of_getElem? found)⟩

end Profile

theorem CheckState.alike_start {context made : Context} {left right : Registry}
    (contexts : context.Alike pairing made) (registries : left.Alike pairing right) :
    (CheckState.start context left).Alike pairing (.start made right) :=
  ⟨registries, ⟨⟨⟨.none, rfl⟩, .nil⟩, contexts.scopes⟩, rfl, False.elim, .nil, rfl, .nil, rfl,
    .nil, rfl, rfl⟩

/--
The registry of a profile after the check of some modules, which may import the
interfaces of those before them.
-/
inductive Registry.Reached (profile : Profile) : Registry → List TypeId → Prop where
  | seeded : Reached profile (profile.seed .initial).1 []
  | checked
      {registry : Registry}
      {known : List TypeId}
      (tokens : List Token)
      (path : ModulePath)
      (interfaces : Interfaces) :
      Reached profile registry known →
      (∀ entry ∈ interfaces, entry.2 ∈ known) →
      Reached profile
        ((SyntaxTree.parse tokens).tree.check path (profile.seed .initial).2 registry
          interfaces).registry
        (((SyntaxTree.parse tokens).tree.check path (profile.seed .initial).2 registry
          interfaces).interface :: known)

theorem SyntaxTree.Proper.check_continues {allowed : String → Prop} {tree : SyntaxTree}
    {path : ModulePath} {context : Context} {registry : Registry} {interfaces : Interfaces}
    (proper : tree.Proper allowed) :
    registry.Continues (tree.check path context registry interfaces).registry := by
  obtain ⟨_, _, _, _, _, _, passes, _⟩ :=
    Check.exists_passes tree.arena path interfaces tree.sourceFile (.start context registry)
  have passed := passes.passed proper.sourceFile_clean
  exact ⟨passed.trace.shapes, passed.objects (passes.apart passed rfl)⟩

theorem Registry.Reached.alike {profile : Profile} {registry : Registry} {known : List TypeId}
    (reached : registry.Reached profile known) :
    profile.registry.Continues registry ∧
      ∃ pairing,
        registry.Alike pairing registry ∧
          profile.ownPairing.Within pairing ∧ ∀ type ∈ known, pairing.types type type := by
  induction reached with
  | seeded =>
    have ordered : Ordered profile.registry.shapes :=
      ordered_of_forall (by cases profile <;> decide +kernel)
    exact ⟨.refl _, profile.ownPairing,
      profile.alike_registry (.refl _) (.refl _) ordered ordered, .refl _, by simp⟩
  | @checked registry known tokens path interfaces _ imported ih =>
    obtain ⟨continues, pairing, alike, within, own⟩ := ih
    have proper : (SyntaxTree.parse tokens).tree.Proper fun _ => True :=
      SyntaxTree.parse_proper fun _ _ _ => trivial
    have more := @SyntaxTree.Proper.check_continues _ _ path (profile.seed .initial).2 registry
      interfaces proper
    have contexts := profile.alike_seed.keep within
    obtain ⟨wider, wide, states, interface⟩ :=
      Check.agree_sourceFile (SyntaxTree.parse tokens).tree.arena path (fun entry _ =>
        Paired.lookup (List.forall₂_same.mpr fun entry member =>
          ⟨rfl, own entry.2 (imported entry member)⟩) entry.path)
        _ _ (CheckState.alike_start contexts alike)
    refine ⟨⟨continues.shapes.trans more.shapes, continues.objects.trans more.objects⟩, wider,
      states.registry, within.trans wide,
      List.forall_mem_cons.mpr ⟨interface, fun type member => ?_⟩⟩
    exact wide.types (own type member)

/-- What a check tells about a module, without the rows of types. -/
structure Checked.Findings where
  diagnostics : List Diagnostic
  resolutions : Table Resolution
  types : NodeId → Option String
  interface : Option (String × List (String × Option String × Bool))

def Checked.findings (checked : Checked) : Checked.Findings where
  diagnostics := checked.diagnostics
  resolutions := checked.resolutions
  types := fun id => (checked.types.get? id).map checked.registry.describe
  interface := (checked.registry.object? checked.interface).map fun object =>
    (object.name, object.members.map fun member =>
      (member.name, member.type.map checked.registry.describe, member.mutable))

theorem Checked.findings_eq {checked other : Checked}
    (registries : checked.registry.Alike pairing other.registry)
    (diagnostics : checked.diagnostics = other.diagnostics)
    (resolutions : checked.resolutions = other.resolutions)
    (types : Alike pairing checked.types other.types)
    (interface : pairing.types checked.interface other.interface) :
    checked.findings = other.findings := by
  have texts {type image : Option TypeId} (alike : Alike pairing type image) :
      type.map checked.registry.describe = image.map other.registry.describe := by
    cases alike with
    | none => rfl
    | some paired => exact congrArg some (registries.describe paired)
  rw [findings, findings, Findings.mk.injEq]
  refine ⟨diagnostics, resolutions, funext fun id => texts (Paired.lookup types id), ?_⟩
  have objects := registries.object? interface
  generalize checked.registry.object? _ = object, other.registry.object? _ = made at objects
  cases objects with
  | none => rfl
  | @some object made objects =>
    obtain ⟨name, _, members, _⟩ := objects
    refine congrArg some (Prod.ext name ?_)
    dsimp only
    generalize object.members = entries, made.members = madeEntries at members
    induction members with
    | nil => rfl
    | cons first _ ih =>
      obtain ⟨isName, isType, isMutable⟩ := first
      rw [List.map_cons, List.map_cons, ih, isName, texts isType, isMutable]

/--
What the check of a module without imports finds does not depend on the modules
that were checked before it.
-/
theorem SyntaxTree.findings_check_eq
    {tree : SyntaxTree}
    {profile : Profile}
    {registry other : Registry}
    {known others : List TypeId}
    (path : ModulePath)
    (interfaces otherInterfaces : Interfaces)
    (reached : registry.Reached profile known)
    (otherReached : other.Reached profile others)
    (alone : tree.sourceFile.imports = []) :
    (tree.check path (profile.seed .initial).2 registry interfaces).findings =
      (tree.check path (profile.seed .initial).2 other otherInterfaces).findings := by
  obtain ⟨continues, _, alike, _⟩ := reached.alike
  obtain ⟨otherContinues, _, otherAlike, _⟩ := otherReached.alike
  have registries := profile.alike_registry continues otherContinues alike.ordered.1
    otherAlike.ordered.1
  have imports : ∀ entry ∈ tree.sourceFile.imports,
      Alike profile.ownPairing (interfaces.lookup entry.path)
        (otherInterfaces.lookup entry.path) := by
    simp [alone]
  obtain ⟨wider, _, states, interface⟩ :=
    Check.agree_sourceFile tree.arena path imports _ _
      (CheckState.alike_start profile.alike_seed registries)
  exact Checked.findings_eq states.registry states.diagnostics states.resolutions states.types
    interface

/-- A module is checked as if another one with a class of the same name had not been there. -/
theorem SyntaxTree.findings_check_eq_pair :
    Checked.pair.registry ≠ (Profile.browser.seed .initial).1 ∧
      (SyntaxTree.pair.check ⟨["b"]⟩ (Profile.browser.seed .initial).2
          (Profile.browser.seed .initial).1 []).findings =
        (SyntaxTree.pair.check ⟨["b"]⟩ (Profile.browser.seed .initial).2
          Checked.pair.registry []).findings := by
  have differs : Checked.pair.registry ≠ (Profile.browser.seed .initial).1 := by decide +kernel
  have alone : SyntaxTree.pair.sourceFile.imports = [] := by decide +kernel
  have reached : Checked.pair.registry.Reached .browser [Checked.pair.interface] :=
    .checked (Token.scan pairText).tokens ⟨["a"]⟩ [] .seeded (by simp)
  exact ⟨differs, findings_check_eq ⟨["b"]⟩ [] [] .seeded reached alone⟩

end Toolshed
