import Toolshed.Proofs.Typing.Agreement
import Toolshed.Proofs.Typing.ModuleFrame

namespace Toolshed

/-!
# Modules that agree
-/

open Likeness (Within Alike Lawful strict)

variable {World : Type} [Likeness World] [Lawful World] {world : World} {type image : TypeId}

namespace Check

variable {node : NodeId} {name : String} {arena : Arena} {types images : List TypeId}
variable {member madeMember : Member} {allowed : String → Prop}
variable {state made : CheckState} {owner : String} {declarations : List Declaration}
variable {check : TypeId → Check Unit} {parameters : List Parameter}

theorem agree_declareImports {interfaces madeInterfaces : Interfaces} (imports : List Import)
    (alike :
      ∀ entry ∈ imports,
        Alike world ((interfaces.lookup entry.path).getD .unknown)
          ((madeInterfaces.lookup entry.path).getD .unknown)) :
    Agree world (declareImports interfaces imports) (declareImports madeInterfaces imports) := by
  induction imports generalizing world with
  | nil => exact .pure rfl
  | cons first rest ih =>
    obtain ⟨found, others⟩ := List.forall_mem_cons.mp alike
    exact .next (agree_declare ⟨.some found, rfl, rfl⟩) fun _ within =>
      ih fun entry member => within.keep (others entry member)

theorem agree_declareTop {found madeFound : Option TypeId} {kind : DeclaredKind}
    (alike : Alike world found madeFound) :
    Agree world (declareTop node name found kind) (declareTop node name madeFound kind) :=
  .next (agree_define ⟨alike, rfl, rfl⟩) fun _ _ => by
    split
    · exact .change fun states => { states with declared := by rw [states.declared] }
    · exact portable_report

theorem portable_newClass : Portable World (newClass node name) := by
  intro world state made states
  obtain ⟨middle, within, quiet, registries, own⟩ :=
    Lawful.declareObject name .classInstance states.registry
  obtain ⟨later, more, quieter, registries, names⟩ :=
    Lawful.typeNameOf registries (Lawful.types_of_own own)
  have states := states.withRegistry (Lawful.trans within more)
    (fun isFaulty => states.faulty (quiet (quieter isFaulty))) registries
  exact ⟨later, Lawful.trans within more,
    { states with classes := .cons ⟨rfl, Lawful.own_mono more own⟩ states.classes }, names⟩

theorem portable_declareNames :
    (declarations : List Declaration) → Portable World (declareNames declarations)
  | [] => .pure rfl
  | .classType _ _ _ _ :: rest =>
    .bind portable_newClass fun _ alike =>
      .next (agree_declareTop (.some alike)) fun _ _ => portable_declareNames rest
  | .function _ _ _ _ _ :: rest | .value _ _ _ _ _ :: rest =>
    .next (agree_declareTop .none) fun _ _ => portable_declareNames rest
  | .stray _ :: rest => portable_declareNames rest

theorem agree_setTopType (alike : Alike world type image) :
    Agree world (setTopType node name type) (setTopType node name image) :=
  .get fun states => by
    rw [states.declared]
    split
    · exact agree_setType alike
    · exact .pure rfl

theorem agree_addMember (own : Likeness.own world type image)
    (members : Alike world member madeMember) :
    Agree world (addMember type owner node member) (addMember image owner node madeMember) := by
  refine .next (fun state made states => ?_) fun free _ => ?_
  · obtain ⟨free, registries⟩ := Lawful.addMember states.registry own members
    exact ⟨world, Lawful.refl world, { states with registry := registries }, free⟩
  · rw [members.1]
    split
    · exact .pure rfl
    · exact portable_report

theorem agree_addParameters (parameters : List Parameter)
    (clean : strict World → ∀ parameter ∈ parameters, parameter.Clean allowed)
    (own : Likeness.own world type image) :
    Agree world (addParameters type owner parameters) (addParameters image owner parameters) := by
  induction parameters generalizing world with
  | nil => exact .pure .nil
  | cons first rest ih =>
    have cleanRest := fun strict => (List.forall_mem_cons.mp (clean strict)).2
    cases first with
    | named id name written =>
      refine .bind (portable_resolve written fun strict => (clean strict _ List.mem_cons_self).2)
        fun within first => ?_
      have own := Lawful.own_mono within own
      refine .next (agree_addMember own ⟨rfl, .some first, rfl⟩) fun _ within => ?_
      exact .bind (ih cleanRest (Lawful.own_mono within own)) fun more types =>
        .pure (.cons (more.keep (within.keep first)) types)
    | stray id => exact ih cleanRest own

theorem agree_addMembers (members : List Declaration)
    (clean : strict World → Declaration.CleanMembers allowed members)
    (own : Likeness.own world type image) :
    Agree world (addMembers type owner members) (addMembers image owner members) := by
  induction members generalizing world with
  | nil => exact .pure rfl
  | cons first rest ih =>
    have cleanRest := fun strict => (clean strict).2
    cases first with
    | value id mutable name written initial =>
      refine .bind (portable_resolveOption written fun strict => (clean strict).1.2.2.1)
        fun within found => ?_
      have own := Lawful.own_mono within own
      exact .next (agree_addMember own ⟨rfl, found, rfl⟩) fun _ more =>
        ih cleanRest (Lawful.own_mono more own)
    | function id name parameters result body =>
      refine .bind (portable_signature parameters result fun strict => (clean strict).1.2.2.1)
        fun within found => ?_
      have own := Lawful.own_mono within own
      exact .next (agree_addMember own ⟨rfl, .some found, rfl⟩) fun _ more =>
        ih cleanRest (Lawful.own_mono more own)
    | classType | stray => exact ih cleanRest own

theorem portable_withClass
    (inner :
      ∀ {world : World} {type image},
        Likeness.own world type image →
        Agree world (check type) (check image)) :
    Portable World (do
      let state ← get
      match state.classes.get? node with
      | none => return ()
      | some selfType => check selfType) :=
  .get fun {state made} states => by
    have found := Paired.lookup states.classes node
    unfold Table.get?
    generalize state.classes.entries.lookup node = type, made.classes.entries.lookup node = image
      at found
    cases found with
    | none => exact .pure rfl
    | some own => exact inner own

theorem portable_declareClass {members : List Declaration}
    (clean : strict World → Declaration.Clean allowed (.classType node name parameters members)) :
    Portable World (declareClass node name parameters members) := by
  intro world
  refine portable_withClass fun own => ?_
  refine .bind (agree_addParameters parameters (fun strict => (clean strict).2.1) own)
    fun within types => .next (.change fun states => ?_) fun _ more => ?_
  · exact { states with
      registry := Lawful.setConstructor states.registry (Lawful.own_mono within own) types }
  · exact agree_addMembers members (fun strict => (clean strict).2.2)
      (Lawful.own_mono (Lawful.trans within more) own)

theorem portable_declareTypes :
    (declarations : List Declaration) → (strict World → CleanDeclarations allowed declarations) →
      Portable World (declareTypes declarations)
  | [], _ => .pure rfl
  | first :: rest, clean => by
    have cleanFirst := fun strict => clean strict first List.mem_cons_self
    have others : Portable World (declareTypes rest) :=
      portable_declareTypes rest fun strict => (List.forall_mem_cons.mp (clean strict)).2
    cases first with
    | classType id name parameters members =>
      exact .next (portable_declareClass cleanFirst) fun _ _ => others
    | function id name parameters result body =>
      exact .bind (portable_signature parameters result fun strict => (cleanFirst strict).2.1)
        fun _ alike => .next (agree_setTopType alike) fun _ _ => others
    | value id mutable name written initial =>
      cases written with
      | none => exact others
      | some written =>
        exact .bind (portable_resolve written fun strict => (cleanFirst strict).2.1 written rfl)
          fun _ alike => .next (agree_setTopType alike) fun _ _ => others
    | stray id => exact others

theorem agree_bindMembers {members images : List Member} (alike : Alike world members images) :
    Agree world (bindMembers members) (bindMembers images) := by
  induction members generalizing world images with
  | nil =>
    cases alike
    exact .pure rfl
  | cons first rest ih =>
    obtain _ | @⟨_, image, _, _, same, others⟩ := alike
    refine .next ?_ fun _ within => ih (within.keep others)
    rw [same.1, same.2.2]
    exact agree_define ⟨same.2.1, rfl, rfl⟩

theorem portable_inDeclaredClass
    (inner :
      ∀ {world : World} {type image},
        Likeness.own world type image →
        Agree world (check type) (check image)) : Portable World (inDeclaredClass node check) :=
  portable_withClass fun own =>
    agree_inScope ⟨.none, rfl⟩ <| .get fun states =>
      .next (agree_bindMembers (Paired.getD
        (Lawful.members states.registry (Lawful.types_of_own own)) .nil))
        fun _ within => inner (Lawful.own_mono within own)

theorem portable_initialValue {written : Option TypeExpression} {initial : Expression}
    (clean : strict World → ∀ type ∈ written, type.Clean allowed)
    (cleanInitial : strict World → initial.Clean allowed) :
    Portable World (initialValue arena node name written initial) :=
  agree_inUnit <| .bind (portable_expression arena initial cleanInitial) fun _ found =>
    agree_initialised found clean

theorem agree_memberValues (members : List Declaration)
    (clean : strict World → Declaration.CleanMembers allowed members)
    (own : Likeness.own world type image) :
    Agree world (memberValues arena node type members)
      (memberValues arena node image members) := by
  induction members generalizing world with
  | nil => exact .pure rfl
  | cons first rest ih =>
    have cleanRest := fun strict => (clean strict).2
    cases first with
    | value id mutable name written initial =>
      refine .bind (portable_initialValue (fun strict => (clean strict).1.2.2.1)
        fun strict => (clean strict).1.2.2.2) fun within found => ?_
      have own := Lawful.own_mono within own
      split
      · refine .next (.change fun states => { states with
            registry := Lawful.setMemberType name states.registry own found }) fun _ within =>
          .next (agree_setType (within.keep found)) fun _ more => ?_
        exact ih cleanRest (Lawful.own_mono (Lawful.trans within more) own)
      · exact ih cleanRest own
    | function | classType | stray => exact ih cleanRest own

theorem portable_initialValues :
    (declarations : List Declaration) → (strict World → CleanDeclarations allowed declarations) →
      Portable World (initialValues arena declarations)
  | [], _ => .pure rfl
  | first :: rest, clean => by
    have cleanFirst := fun strict => clean strict first List.mem_cons_self
    have others : Portable World (initialValues arena rest) :=
      portable_initialValues rest fun strict => (List.forall_mem_cons.mp (clean strict)).2
    cases first with
    | value id mutable name written initial =>
      refine .bind (portable_initialValue (fun strict => (cleanFirst strict).2.1)
        fun strict => (cleanFirst strict).2.2) fun _ found => ?_
      split
      · exact .next (agree_setTopType found) fun _ _ => others
      · exact others
    | classType id name parameters members =>
      exact .next (portable_inDeclaredClass (agree_memberValues members
        fun strict => (cleanFirst strict).2.2)) fun _ _ => others
    | function | stray => exact others

theorem portable_function {id : NodeId} {result : Option TypeExpression} {body : Block}
    (clean : strict World → Declaration.Clean allowed (.function id name parameters result body)) :
    Portable World (inUnit node
      (declaredFunction id parameters result body.returns (blockStatements arena body))) :=
  agree_inUnit (portable_declaredFunction (fun strict => (clean strict).2.1)
    (portable_blockStatements arena body fun strict => (clean strict).2.2))

theorem portable_memberBodies :
    (members : List Declaration) → (strict World → Declaration.CleanMembers allowed members) →
      Portable World (memberBodies arena node members)
  | [], _ => .pure rfl
  | .function _ _ _ _ _ :: rest, clean =>
    .next (portable_function fun strict => (clean strict).1.2) fun _ _ =>
      portable_memberBodies rest fun strict => (clean strict).2
  | .value _ _ _ _ _ :: rest, clean | .classType _ _ _ _ :: rest, clean
  | .stray _ :: rest, clean => portable_memberBodies rest fun strict => (clean strict).2

theorem portable_bodies :
    (declarations : List Declaration) → (strict World → CleanDeclarations allowed declarations) →
      Portable World (bodies arena declarations)
  | [], _ => .pure rfl
  | first :: rest, clean => by
    have cleanFirst := fun strict => clean strict first List.mem_cons_self
    have others : Portable World (bodies arena rest) :=
      portable_bodies rest fun strict => (List.forall_mem_cons.mp (clean strict)).2
    cases first with
    | function id name parameters result body =>
      exact .next (portable_function cleanFirst) fun _ _ => others
    | classType id name parameters members =>
      exact .next (portable_inDeclaredClass fun _ =>
        portable_memberBodies members fun strict => (cleanFirst strict).2.2) fun _ _ => others
    | value | stray => exact others

theorem registries_addAll {left right : Registry} {members images : List Member}
    (registries : Likeness.registries world left right) (own : Likeness.own world type image)
    (alike : Alike world members images) :
    Likeness.registries world (addAll left type members) (addAll right image images) := by
  induction alike generalizing left right with
  | nil => exact registries
  | cons first _ ih => exact ih (Lawful.addMember registries own first).2

variable (states : state.Alike world made)
include states

theorem alike_bound
    (bound : strict World → ∃ type, (state.context.lookup name).bind Binding.type = some type) :
    Alike world (((state.context.lookup name).bind Binding.type).getD .unknown)
      (((made.context.lookup name).bind Binding.type).getD .unknown) := by
  have unknown : (state.context.lookup name).bind Binding.type = none →
      Alike world TypeId.unknown TypeId.unknown := by
    intro missing
    refine (Lawful.unknown world).2 fun strict => ?_
    obtain ⟨type, isBound⟩ := bound strict
    simp [missing] at isBound
  have bindings := Context.alike_lookup states.context name
  generalize state.context.lookup name = binding, made.context.lookup name = madeBinding
    at bindings unknown
  cases bindings with
  | none => exact unknown rfl
  | @some binding madeBinding same =>
    have types := same.1
    simp only [Option.bind_some] at unknown ⊢
    generalize binding.type = type, madeBinding.type = image at types unknown
    cases types with
    | none => exact unknown rfl
    | some same => exact same

theorem alike_exported
    (bound :
      strict World →
      ∀ declaration ∈ declarations,
        ∀ entry, exported? declaration = some entry →
          ∃ type, (state.context.lookup entry.1).bind Binding.type = some type) :
    Alike world (declarations.filterMap (exportedMember? state))
      (declarations.filterMap (exportedMember? made)) := by
  induction declarations with
  | nil => exact .nil
  | cons first rest ih =>
    have others := ih fun strict declaration member =>
      bound strict declaration (List.mem_cons_of_mem _ member)
    have member : Alike world (exportedMember? state first) (exportedMember? made first) := by
      unfold exportedMember?
      cases isExported : exported? first with
      | none => exact .none
      | some entry =>
        rw [states.declared]
        dsimp only
        split
        · exact .some ⟨rfl, .some (alike_bound states fun strict =>
            bound strict first List.mem_cons_self entry isExported), rfl⟩
        · exact .none
    rw [List.filterMap_cons, List.filterMap_cons]
    generalize exportedMember? state first = found, exportedMember? made first = madeFound at member
    cases member with
    | none => exact others
    | some same => exact .cons same others

theorem agree_interface {path : ModulePath}
    (bound :
      strict World →
      ∀ declaration ∈ declarations,
        ∀ entry, exported? declaration = some entry →
          ∃ type, (state.context.lookup entry.1).bind Binding.type = some type) :
    ∃ later,
      Within world later ∧
        (stateAfter (interface path declarations) state).Alike later
          (stateAfter (interface path declarations) made) ∧
        Alike later (answer (interface path declarations) state)
          (answer (interface path declarations) made) := by
  obtain ⟨later, within, quiet, registries, own⟩ :=
    Lawful.declareObject path.text .moduleInterface states.registry
  have members := within.keep (alike_exported states bound)
  rw [stateAfter_interface, stateAfter_interface]
  exact ⟨later, within,
    states.withRegistry within (fun isFaulty => states.faulty (quiet isFaulty))
      (registries_addAll registries own members), Lawful.types_of_own own⟩

end Check

end Toolshed
