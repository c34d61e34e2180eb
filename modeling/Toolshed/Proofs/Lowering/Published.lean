import Toolshed.Proofs.Grammar.Proper
import Toolshed.Proofs.Lowering.Binding
import Toolshed.Proofs.Typing.CheckedModule
import Toolshed.Proofs.Typing.Profile
import Toolshed.Session

namespace Toolshed

/-!
# What a module hands out

The interface of a module and the types of its classes are made by the check, and
the objects that stand for them are made with the script.
-/

namespace Script

/-- An entry hands out a member: under its name, and read anew each time if it may change. -/
def Property.HandsOut : Property → Member → Prop
  | .value key content, member =>
    key = member.name ∧ member.mutable = false ∧ content = .identifier (nameOf member.name)
  | .getter key content, member =>
    key = member.name ∧ member.mutable = true ∧ content = .identifier (nameOf member.name)

def Statement.Declares (statement : Statement) (member : Member) : Prop :=
  statement.functionName? = some (nameOf member.name) ∨
    statement.variableName? = some (nameOf member.name)

/--
A function makes the objects of a class: it takes the parameters of the class,
which are the first members of its objects, and returns all members.
-/
def Statement.Constructs (statement : Statement) (object : ObjectType) : Prop :=
  ∃ name parameters body fields own inner types,
    statement = .function (.make name parameters (body ++ [.returnValue (.object fields)])) ∧
      List.Forall₂ Property.HandsOut fields object.members ∧
      object.members = own ++ inner ∧
      parameters = own.map (fun member => nameOf member.name) ∧
      object.constructor = some types ∧
      own.map Member.type = types.map some ∧
      List.Forall₂ Declares body inner

end Script

namespace Lowering

variable {resolutions : Table Resolution} {final : CheckState} {whole context : Context}
variable {lowered : Script.Statement} {found : List Declaration}

theorem handsOut_property (name : String) (type : Option TypeId) (mutable : Bool) :
    (property name mutable).HandsOut ⟨name, type, mutable⟩ := by
  cases mutable <;> exact ⟨rfl, rfl, rfl⟩

theorem handsOut_exports (whole : Context) (found : List Declaration) :
    List.Forall₂ Script.Property.HandsOut (found.filterMap export?)
      (found.filterMap (Declaration.published? whole)) := by
  induction found with
  | nil => exact .nil
  | cons first rest ih =>
    cases first with
    | value | function | classType =>
      exact .cons (handsOut_property _ _ _) ih
    | stray id => exact ih

theorem handsOut_parameters {found : List Parameter} {names : List String} {own : List Member}
    (isLowered : parameterNames found = .ok names)
    (entries : List.Forall₂ (Check.ParameterEntry final) found own) :
    names = own.map Member.name ∧
      List.Forall₂ Script.Property.HandsOut (names.map fun name => property name false) own := by
  rw [parameterNames_eq isLowered]
  clear isLowered
  induction entries with
  | nil => exact ⟨rfl, .nil⟩
  | @cons parameter entry _ _ isEntry _ ih =>
    cases parameter with
    | named id name written =>
      obtain ⟨type, rfl, _⟩ := isEntry
      exact ⟨congrArg (name :: ·) ih.1,
        .cons (handsOut_property _ _ _) ih.2⟩
    | stray id => exact isEntry.elim

theorem handsOut_classMembers {inner : List Member}
    {lowered : List (Script.Statement × Script.Property)}
    (isLowered : classMembers resolutions found = .ok lowered)
    (entries : List.Forall₂ (TypedEntry final context) found inner) :
    List.Forall₂ Script.Statement.Declares (lowered.map Prod.fst) inner ∧
      List.Forall₂ Script.Property.HandsOut (lowered.map Prod.snd) inner := by
  induction entries generalizing lowered with
  | nil =>
    obtain rfl := Except.ok.inj isLowered
    exact ⟨.nil, .nil⟩
  | @cons member entry _ _ isEntry _ ih =>
    obtain ⟨statement, isStatement, isLowered⟩ := Lowered.bind_eq_ok_iff.mp isLowered
    obtain ⟨property, isProperty, isLowered⟩ := Lowered.bind_eq_ok_iff.mp isLowered
    obtain ⟨others, areOthers, rfl⟩ := Lowered.map_eq_ok_iff.mp isLowered
    obtain ⟨declares, handsOut⟩ := ih areOthers
    obtain ⟨functionName, variableName⟩ := names_declaration isStatement
    cases member with
    | value id mutable name written initial =>
      obtain ⟨type, rfl, _⟩ := isEntry
      obtain rfl := Except.ok.inj isProperty
      exact ⟨.cons (.inr (Option.toList_eq_singleton_iff.mp variableName)) declares,
        .cons (handsOut_property _ _ _) handsOut⟩
    | function id name parameters result body =>
      obtain ⟨type, rfl, _⟩ := isEntry
      obtain rfl := Except.ok.inj isProperty
      exact ⟨.cons (.inl (Option.toList_eq_singleton_iff.mp functionName)) declares,
        .cons (handsOut_property name (some type) false) handsOut⟩
    | classType | stray => exact isEntry.elim

theorem constructs_classType {id : NodeId} {name : String} {parameters : List Parameter}
    {members : List Declaration} {object : ObjectType}
    (isObject : Check.ClassObject final (TypedEntry final context) parameters members object)
    (isLowered : declaration resolutions (.classType id name parameters members) = .ok lowered) :
    lowered.Constructs object := by
  obtain ⟨own, inner, types, isMembers, ofParameters, ofMembers, isConstructor, isTypes⟩ :=
    isObject.entries
  obtain ⟨names, areNames, isLowered⟩ := Lowered.bind_eq_ok_iff.mp isLowered
  obtain ⟨pairs, arePairs, rfl⟩ := Lowered.map_eq_ok_iff.mp isLowered
  obtain ⟨sameNames, handsOutOwn⟩ := handsOut_parameters areNames ofParameters
  obtain ⟨declares, handsOutInner⟩ := handsOut_classMembers arePairs ofMembers
  refine ⟨_, _, _, _, own, inner, types, rfl, ?_, isMembers, ?_, isConstructor, isTypes, declares⟩
  · rw [isMembers]
    exact List.rel_append handsOutOwn handsOutInner
  · rw [sameNames, List.map_map]
    rfl

/--
A statement of a script makes what a declaration of its module promises by a
member of the interface.
-/
def Keeps (registry : Registry) : Declaration × Script.Statement → Member → Prop
  | (.classType _ _ _ _, statement), member =>
    statement.Declares member ∧
      ∃ nameType selfType object,
        member.type = some nameType ∧
          registry.shape? nameType = some (.typeName selfType) ∧
          registry.object? selfType = some object ∧
          statement.Constructs object
  | (_, statement), member => statement.Declares member

theorem keeps_declaration {found : Declaration} (typed : found.Typed final whole)
    (isLowered : declaration resolutions found = .ok lowered) :
    ∃ member, found.published? whole = some member ∧
      Keeps final.registry (found, lowered) member := by
  obtain ⟨functionName, variableName⟩ := names_declaration isLowered
  cases found with
  | value id mutable name written initial =>
    exact ⟨_, rfl, .inr (Option.toList_eq_singleton_iff.mp variableName)⟩
  | function id name parameters result body =>
    exact ⟨_, rfl, .inl (Option.toList_eq_singleton_iff.mp functionName)⟩
  | classType id name parameters members =>
    obtain ⟨nameType, selfType, object, bound, shape, isObject, isClass, _⟩ := typed
    have isBound : whole.lookup name = some ⟨some nameType, .declared .classType, some id⟩ := by
      simp [Context.lookup, Context.scopes, bound]
    refine ⟨_, rfl, .inl (Option.toList_eq_singleton_iff.mp functionName), nameType, selfType,
      object, ?_, shape, isObject, constructs_classType isClass isLowered⟩
    simp [isBound]
  | stray id => exact typed.elim

theorem keeps_declarations {lowered : List Script.Statement}
    (typed : ∀ declaration ∈ found, declaration.Typed final whole)
    (isLowered : declarations resolutions found = .ok lowered) :
    found.length = lowered.length ∧
      List.Forall₂ (Keeps final.registry) (found.zip lowered)
        (found.filterMap (Declaration.published? whole)) := by
  induction found generalizing lowered with
  | nil =>
    obtain rfl := Except.ok.inj isLowered
    exact ⟨rfl, .nil⟩
  | cons first rest ih =>
    obtain ⟨statement, isFirst, isLowered⟩ := Lowered.bind_eq_ok_iff.mp isLowered
    obtain ⟨others, areOthers, rfl⟩ := Lowered.map_eq_ok_iff.mp isLowered
    obtain ⟨typedFirst, typedRest⟩ := List.forall_mem_cons.mp typed
    obtain ⟨sameLength, keeps⟩ := ih typedRest areOthers
    obtain ⟨member, published, keepsFirst⟩ := keeps_declaration typedFirst isFirst
    rw [List.filterMap_cons_some published]
    exact ⟨by simp [sameLength], .cons keepsFirst keeps⟩

end Lowering

/--
A module without faults hands out, in order, the members of its interface, and
its script has a statement for each of its declarations that makes what the
interface promises. A class becomes a function that takes what the constructor
takes and returns, in order, the members of its objects.
-/
theorem SyntaxTree.lower_keeps_interface {tokens : List Token} {tree : SyntaxTree}
    {context : Context} {registry : Registry} (path : ModulePath) (interfaces : Interfaces)
    (linkage : Linkage) (level : Level) (sound : registry.Sound)
    (faultless : SyntaxTree.parse tokens = ⟨tree, []⟩)
    (success : (tree.check path context registry interfaces).success = true) :
    ∃ object body entries,
      (tree.check path context registry interfaces).registry.object?
          (tree.check path context registry interfaces).interface = some object ∧
        tree.lower linkage level path (tree.check path context registry interfaces).resolutions =
          .ok (level.apply (linkage.wrapper path
            (Lowering.imports linkage.importStyle path tree.sourceFile.imports ++ body)
            entries)) ∧
        List.Forall₂ Script.Property.HandsOut entries object.members ∧
        tree.sourceFile.declarations.length = body.length ∧
        List.Forall₂ (Lowering.Keeps (tree.check path context registry interfaces).registry)
          (tree.sourceFile.declarations.zip body) object.members := by
  have proper : (SyntaxTree.parse tokens).tree.Proper fun _ => True :=
    SyntaxTree.parse_proper fun _ _ _ => trivial
  rw [faultless] at proper
  have typed := proper.check_typed sound success
  obtain ⟨object, isObject, isMembers⟩ := typed.interface
  obtain ⟨body, isBody⟩ :=
    Lowering.succeeds_declarations proper.sourceFile_clean.declarations typed.declarations
  obtain ⟨sameLength, keeps⟩ := Lowering.keeps_declarations typed.declarations isBody
  refine ⟨object, body, _, isObject, lower_eq level path isBody, ?_, sameLength, ?_⟩
  · rw [isMembers]
    exact Lowering.handsOut_exports _ _
  · rw [isMembers]
    exact keeps

def pointsText : String :=
  "class Point(x: Number) \x7b\n    let y = x\n    var z = 1\n\x7d\n" ++
    "var count = 0\nfun origin(): Point \x7b\n    return Point(count)\n\x7d\n"

def SyntaxTree.points : SyntaxTree :=
  (SyntaxTree.parse (Token.scan pointsText).tokens).tree

def Checked.points : Checked :=
  SyntaxTree.points.check Compiler.snippet (Profile.default.seed .initial).2
    (Profile.default.seed .initial).1 []

theorem SyntaxTree.lower_keeps_interface_points :
    Checked.points.success = true ∧
      ∃ object body entries,
        Checked.points.registry.object? Checked.points.interface = some object ∧
          SyntaxTree.points.lower Target.browser.linkage .simple Compiler.snippet
              Checked.points.resolutions =
            .ok (Script.simplify (Wrapper.browser Compiler.snippet ([] ++ body) entries)) ∧
          List.Forall₂ Script.Property.HandsOut entries object.members ∧
          SyntaxTree.points.sourceFile.declarations.length = body.length ∧
          List.Forall₂ (Lowering.Keeps Checked.points.registry)
            (SyntaxTree.points.sourceFile.declarations.zip body) object.members := by
  have faultless : SyntaxTree.parse (Token.scan pointsText).tokens = ⟨SyntaxTree.points, []⟩ := by
    have nothing : (SyntaxTree.parse (Token.scan pointsText).tokens).diagnostics = [] := by
      decide +kernel
    rw [← nothing]
    rfl
  have success : Checked.points.success = true := by decide +kernel
  have noImports : SyntaxTree.points.sourceFile.imports.isEmpty = true := by decide +kernel
  have keeps := SyntaxTree.lower_keeps_interface Compiler.snippet [] Target.browser.linkage .simple
    (Profile.sound_seed .default Registry.sound_initial) faultless success
  rw [List.isEmpty_iff.mp noImports] at keeps
  exact ⟨success, keeps⟩

end Toolshed
