import Mathlib.Tactic.FinCases
import Toolshed.Proofs.Grammar.Proper
import Toolshed.Proofs.Typing.Complete
import Toolshed.Proofs.Typing.Known
import Toolshed.Proofs.Typing.Profile
import Toolshed.Session

namespace Toolshed

/-!
# No silent unknown types

The unknown type stands for what failed to check. A module without faults has no
trace of it.
-/

/-- One registry has all rows and object types of another, and may have more. -/
structure Registry.Continues (registry larger : Registry) : Prop where
  shapes : registry.shapes.toList <+: larger.shapes.toList
  objects : registry.objects.toList <+: larger.objects.toList

theorem Registry.Continues.refl (registry : Registry) : registry.Continues registry :=
  ⟨List.prefix_rfl, List.prefix_rfl⟩

/-- Nothing that a check has found out since an earlier registry is unknown. -/
structure Checked.Explicit (before : Registry) (checked : Checked) : Prop where
  types :
    ∀ id type,
      checked.types.get? id = some type →
      type ≠ .unknown ∧ checked.registry.Free type
  rows :
    ∀ index, before.size ≤ index → index < checked.registry.size → checked.registry.Free ⟨index⟩
  objects :
    ∀ (index : Nat) (object : ObjectType),
      before.objects.size ≤ index →
      checked.registry.objects[index]? = some object →
      (∀ member ∈ object.members,
          ∃ type, member.type = some type ∧ checked.registry.Free type) ∧
        ∀ parameters,
          object.constructor = some parameters →
          ∀ type ∈ parameters, checked.registry.Free type
  interface : checked.registry.Free checked.interface

namespace Profile

/-- The registry of a profile before any module is checked. -/
def registry (profile : Profile) : Registry :=
  (profile.seed .initial).1

def shapes (profile : Profile) : List Shape :=
  [.unknown, .number, .string, .boolean, .unit, .typeName .number, .typeName .string,
    .typeName .boolean, .typeName .unit, .function [.string] .unit, .function [.number] .string] ++
    match profile with
    | .default => []
    | .browser => [.object ⟨0⟩]

def objects : Profile → List ObjectType
  | .default => []
  | .browser => [⟨"Console", .host, [⟨"log", some ⟨9⟩, false⟩], none⟩]

theorem shapes_registry (profile : Profile) :
    profile.registry.shapes = profile.shapes.toArray := by
  cases profile <;> decide +kernel

theorem objects_registry (profile : Profile) :
    profile.registry.objects = profile.objects.toArray := by
  cases profile <;> decide +kernel

theorem free_registry (profile : Profile) {type : TypeId} (known : type ≠ .unknown)
    (inside : type.index < profile.registry.size) : profile.registry.Free type := by
  refine ⟨fun type => type ≠ .unknown ∧ type.index < profile.registry.size, ?_, known, inside⟩
  rintro type ⟨known, inside⟩
  obtain ⟨shape, found⟩ : ∃ shape, profile.registry.shape? type = some shape :=
    ⟨_, Array.getElem?_eq_getElem inside⟩
  have isShape : shape ∈ profile.shapes := by
    simpa [shapes_registry] using Array.mem_of_getElem? found
  have isKnown : shape ≠ .unknown := by
    have unknown : profile.registry.shape? .unknown = some .unknown := by
      simp [Registry.shape?, shapes_registry, shapes, TypeId.unknown]
    exact fun same => known ((Registry.shape?_eq_iff found unknown).mpr same)
  refine ⟨shape, found, ?_⟩
  cases profile <;> fin_cases isShape <;>
    simp_all +decide [Shape.Within, Registry.size, shapes_registry, objects_registry, shapes,
      objects, ObjectType.Within, ObjectType.Complete]

theorem bindings_seed (profile : Profile) :
    ∀ scope ∈ (profile.seed .initial).2.scopes,
      ∀ entry ∈ scope.bindings,
        ∀ type, entry.2.type = some type →
          type ≠ .unknown ∧ type.index < profile.registry.size := by
  cases profile <;> decide +kernel

end Profile

variable {profile : Profile} {registry : Registry}

def Knowledge.start (rows : Registry.initial.shapes.toList <+: registry.shapes.toList) :
    Knowledge registry where
  types := registry.Free
  own := fun _ => False
  faulty := False
  basic := by
    have isFree : ∀ {type shape}, Registry.initial.shape? type = some shape →
        (shape.Within registry (fun _ => False) registry.Free) → registry.Free type :=
      fun isRow => Registry.clear_of_shape (Registry.shape?_of_longer rows isRow)
    simp only [List.forall_mem_cons]
    exact ⟨isFree rfl trivial, isFree rfl trivial, isFree rfl trivial, isFree rfl trivial, by simp⟩

theorem Knowledge.covers_start (rows : Registry.initial.shapes.toList <+: registry.shapes.toList) :
    (Knowledge.start rows).Covers registry :=
  ⟨rows, Registry.closed_free, fun _ newer inside => absurd inside (Nat.not_lt.mpr newer),
    Nat.le_refl _,
    fun _ _ newer found =>
      absurd (Array.getElem?_eq_some_iff.mp found).1 (Nat.not_lt.mpr newer),
    fun _ => False.elim⟩

theorem CheckState.known_start (continues : (profile.seed .initial).1.Continues registry)
    (rows : Registry.initial.shapes.toList <+: registry.shapes.toList) :
    (start (profile.seed .initial).2 registry).Alike (Knowledge.start rows)
      (start (profile.seed .initial).2 registry) := by
  have kinds : (profile.seed .initial).2.innermost.kind = .global ∧
      (profile.seed .initial).2.outer = [] := by
    cases profile <;> decide +kernel
  refine ⟨⟨rfl, fun _ => Knowledge.covers_start rows⟩, ⟨⟨⟨.none, rfl⟩, .nil⟩, .cons ⟨?_, ?_⟩ ?_⟩,
    rfl, False.elim, .nil, rfl, .nil, rfl, .nil, rfl, rfl⟩
  · rw [kinds.1]
    exact ⟨.none, rfl⟩
  · refine List.forall₂_same.mpr fun entry member => ⟨rfl, ?_, rfl, rfl⟩
    cases isType : entry.2.type with
    | none => exact .none
    | some type =>
      obtain ⟨known, inside⟩ :=
        profile.bindings_seed _ List.mem_cons_self entry member type isType
      have isFree := profile.free_registry known inside
      exact .some ⟨rfl, fun _ => isFree.longer continues.shapes continues.objects⟩
  · rw [kinds.2]
    exact .nil

namespace Check

variable {allowed : String → Prop} {arena : Arena} {path : ModulePath} {interfaces : Interfaces}
variable {file : SourceFile} {base : Registry} {knowledge : Knowledge base}
variable {start imported named typed valued bodied ordered finish : CheckState}

theorem Passes.known
    (passes :
      Passes arena path interfaces file start imported named typed valued bodied ordered finish)
    (clean : file.Clean allowed) (known : start.Alike knowledge start)
    (imports :
      ∀ entry ∈ file.imports,
        Likeness.Alike knowledge ((interfaces.lookup entry.path).getD .unknown)
          ((interfaces.lookup entry.path).getD .unknown)) :
    ∃ later : Knowledge base, ordered.Alike later ordered := by
  have clean : True → CleanDeclarations allowed file.declarations := fun _ => clean.declarations
  obtain ⟨_, _, known, _⟩ := agree_declareImports file.imports imports start start known
  rw [passes.imports] at known
  obtain ⟨_, _, known, _⟩ := portable_declareNames file.declarations imported imported known
  rw [passes.names] at known
  obtain ⟨_, _, known, _⟩ := portable_declareTypes file.declarations clean named named known
  rw [passes.types] at known
  obtain ⟨_, _, known, _⟩ := portable_initialValues file.declarations clean typed typed known
  rw [passes.values] at known
  obtain ⟨_, _, known, _⟩ := portable_bodies file.declarations clean valued valued known
  rw [passes.bodies] at known
  obtain ⟨later, _, known, _⟩ := portable_order bodied bodied known
  rw [passes.order] at known
  exact ⟨later, known⟩

end Check

namespace SyntaxTree

variable {allowed : String → Prop} {tree : SyntaxTree} {path : ModulePath}
variable {interfaces : Interfaces}

theorem Proper.explicit_check (proper : tree.Proper allowed) (sound : registry.Sound)
    (continues : (profile.seed .initial).1.Continues registry)
    (imports :
      ∀ entry ∈ tree.sourceFile.imports,
        ∃ interface,
          interfaces.lookup entry.path = some interface ∧ registry.Free interface)
    (success : (tree.check path (profile.seed .initial).2 registry interfaces).success = true) :
    (tree.check path (profile.seed .initial).2 registry interfaces).Explicit registry := by
  have clean := proper.sourceFile_clean
  have typed := proper.check_typed sound success
  obtain ⟨_, _, _, valued, _, ordered, passes, interface⟩ :=
    Check.exists_passes tree.arena path interfaces tree.sourceFile
      (.start (profile.seed .initial).2 registry)
  have passed := passes.passed clean
  have silent : (tree.checkEnd path (profile.seed .initial).2 registry interfaces).diagnostics =
      [] := List.isEmpty_iff.mp success
  have silentOrdered := passed.interface.silent silent
  have silentValued := passed.bodies.silent (passed.order.silent silentOrdered)
  have found := passes.found clean rfl rfl (CheckState.regular_start sound) silentValued
  have context : ordered.context =
      (tree.checkEnd path (profile.seed .initial).2 registry interfaces).context := by
    show _ = (Check.stateAfter _ _).context
    rw [← passes.interface, Check.stateAfter_interface]
  obtain ⟨_, known⟩ := passes.known clean (CheckState.known_start continues sound.rows)
    fun entry member => by
      obtain ⟨found, isFound, isFree⟩ := imports entry member
      rw [isFound]
      exact ⟨rfl, fun _ => isFree⟩
  obtain ⟨knowledge, _, knownFinish, knownInterface⟩ := Check.agree_interface known
    fun _ declaration member entry exported => by
      rw [context]
      exact (typed.declarations declaration member).bound exported
  rw [passes.interface] at knownFinish
  have quiet : ¬knowledge.faulty := fun isFaulty => knownFinish.faulty isFaulty silent
  have covers := knownFinish.registry.2 quiet
  have complete : ∀ (index : Nat) (object : ObjectType),
      registry.objects.size ≤ index →
      (tree.checkEnd path (profile.seed .initial).2 registry interfaces).registry.objects[index]? =
        some object →
      object.Complete := by
    show ∀ (index : Nat) (object : ObjectType), _ →
      (Check.stateAfter _ _).registry.objects[index]? = some object → _
    rw [← passes.interface]
    exact Check.complete_interface fun index object newer => passes.complete clean found newer
  have free : ∀ type, knowledge.types type →
      (tree.check path (profile.seed .initial).2 registry interfaces).registry.Free type :=
    fun type => covers.closed.free complete
  refine ⟨?_, ?_, ?_, ?_⟩
  · intro id type isType
    have known := Knowledge.types_of_get? knownFinish quiet isType
    exact ⟨covers.closed.ne_unknown known covers.rows, free type known⟩
  · exact fun index newer inside => free _ (covers.shapes index newer inside)
  · intro index object newer isObject
    obtain ⟨members, constructor⟩ := covers.objects index object newer isObject
    refine ⟨fun member isMember => ?_, fun parameters isParameters type isType =>
      free type (constructor parameters isParameters type isType)⟩
    obtain ⟨type, isType⟩ :=
      Option.ne_none_iff_exists'.mp (complete index object newer isObject member isMember)
    exact ⟨type, isType, free type (members member isMember type isType)⟩
  · have same : (tree.check path (profile.seed .initial).2 registry interfaces).interface = _ :=
      interface
    rw [same]
    exact free _ (knownInterface.2 quiet)

/--
If no fault is found in a module that imports interfaces without unknown parts,
then nothing in it is unknown: no expression has the unknown type, every member
of its classes and of its interface has a type, and the unknown type is nowhere
inside a type that the check has made.
-/
theorem check_explicit
    {tokens : List Token}
    (path : ModulePath)
    (profile : Profile)
    (sound : registry.Sound)
    (continues : (profile.seed .initial).1.Continues registry)
    (faultless : SyntaxTree.parse tokens = ⟨tree, []⟩)
    (imports :
      ∀ entry ∈ tree.sourceFile.imports,
        ∃ interface,
          interfaces.lookup entry.path = some interface ∧ registry.Free interface)
    (success :
      (tree.check path (profile.seed .initial).2 registry interfaces).success = true) :
    (tree.check path (profile.seed .initial).2 registry interfaces).Explicit registry := by
  have proper : (SyntaxTree.parse tokens).tree.Proper fun _ => True :=
    SyntaxTree.parse_proper fun _ _ _ => trivial
  rw [faultless] at proper
  exact proper.explicit_check sound continues imports success

end SyntaxTree

def pairText : String :=
  "class P(x: Number) \x7b\n  let y = x\n\x7d\nlet p = P(0)\n"

def pairUserText : String :=
  "import a\nlet f = fun(k: Number) => a.p.y\n"

def SyntaxTree.pair : SyntaxTree :=
  (SyntaxTree.parse (Token.scan pairText).tokens).tree

def SyntaxTree.pairUser : SyntaxTree :=
  (SyntaxTree.parse (Token.scan pairUserText).tokens).tree

/-- What the check finds in the module with the class. -/
def Checked.pair : Checked :=
  SyntaxTree.pair.check ⟨["a"]⟩ (Profile.browser.seed .initial).2
    (Profile.browser.seed .initial).1 []

/-- What the check finds in the module that imports it. -/
def Checked.pairUser : Checked :=
  SyntaxTree.pairUser.check ⟨["b"]⟩ (Profile.browser.seed .initial).2
    Checked.pair.registry [(⟨["a"]⟩, Checked.pair.interface)]

theorem SyntaxTree.check_explicit_imported :
    Checked.pairUser.success = true ∧ Checked.pairUser.Explicit Checked.pair.registry := by
  have sound := Profile.sound_seed .browser Registry.sound_initial
  have proper : SyntaxTree.pair.Proper fun _ => True :=
    SyntaxTree.parse_proper fun _ _ _ => trivial
  have pair :
      (SyntaxTree.parse (Token.scan pairText).tokens).diagnostics = [] ∧
        SyntaxTree.pair.sourceFile.imports = [] ∧
        Checked.pair.success = true ∧
        (Profile.browser.seed .initial).1.shapes.toList <+: Checked.pair.registry.shapes.toList ∧
        (Profile.browser.seed .initial).1.objects.toList <+:
          Checked.pair.registry.objects.toList := by
    decide +kernel
  have user :
      (SyntaxTree.parse (Token.scan pairUserText).tokens).diagnostics = [] ∧
        (∀ entry ∈ SyntaxTree.pairUser.sourceFile.imports, entry.path = ⟨["a"]⟩) ∧
        Checked.pairUser.success = true := by
    decide +kernel
  have parsed : SyntaxTree.parse (Token.scan pairText).tokens = ⟨SyntaxTree.pair, []⟩ := by
    rw [← pair.1]
    rfl
  have parsedUser : SyntaxTree.parse (Token.scan pairUserText).tokens =
      ⟨SyntaxTree.pairUser, []⟩ := by
    rw [← user.1]
    rfl
  have explicit : Checked.pair.Explicit (Profile.browser.seed .initial).1 :=
    SyntaxTree.check_explicit ⟨["a"]⟩ .browser sound (.refl _) parsed (by simp [pair.2.1])
      pair.2.2.1
  refine ⟨user.2.2, SyntaxTree.check_explicit ⟨["b"]⟩ .browser (proper.check_sound sound)
    ⟨pair.2.2.2.1, pair.2.2.2.2⟩ parsedUser (fun entry member => ?_) user.2.2⟩
  exact ⟨Checked.pair.interface, by simp [user.2.1 entry member], explicit.interface⟩

/-- A lambda gives a known type to a body that has none, and the mistake is noted twice. -/
theorem Check.mistake_in_lambda :
    let check := fun text : String =>
      (SyntaxTree.parse (Token.scan text).tokens).tree.check (ModulePath.parse "m")
        (Profile.seed .default .initial).2 (Profile.seed .default .initial).1 []
    (check "let f: (Number) -> Number = fun(a: Number) => a").diagnostics = [] ∧
      (check "let f: (Number) -> Number = fun(a: Number) => b").diagnostics =
        [⟨.undefinedName "b", .node 5⟩,
          ⟨.wrongInitialiser "f" "(Number) -> Number" "(Number) -> Unknown", .node 6⟩] := by
  decide +kernel

end Toolshed
