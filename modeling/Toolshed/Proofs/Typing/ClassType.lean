import Toolshed.Proofs.Typing.TopLevel

namespace Toolshed

/-!
# The object type of a class

An instance of a class has a member for each parameter and each declaration of
the class, under different names and in this order.
-/

attribute [local grind =] Declaration.ids Declaration.idsOfAll

namespace Check

variable {α β : Type} {allowed : String → Prop} {ids : List NodeId}
variable {state after : CheckState} {classes : Table TypeId}
variable {entry : Member}

def ParameterEntry (state : CheckState) : Parameter → Member → Prop
  | .named _ name written, entry =>
    ∃ type, entry = ⟨name, some type, false⟩ ∧ written.Denotes state type
  | .stray _, _ => False

def MemberEntry (state : CheckState) : Declaration → Member → Prop
  | .value _ mutable name written _, entry =>
    ∃ type,
      entry = ⟨name, type, mutable⟩ ∧
        Option.Rel (TypeExpression.Denotes state) written type
  | .function _ name parameters result _, entry =>
    ∃ type types resultType,
      entry = ⟨name, some type, false⟩ ∧
        SignatureDenotes state parameters result types resultType ∧
        state.registry.shape? type = some (.function types (resultType.getD .unit))
  | _, _ => False

structure ClassObject
    (state : CheckState)
    (entry : Declaration → Member → Prop)
    (parameters : List Parameter)
    (members : List Declaration)
    (object : ObjectType) : Prop where
  entries :
    ∃ own inner types,
      object.members = own ++ inner ∧
        List.Forall₂ (ParameterEntry state) parameters own ∧
        List.Forall₂ entry members inner ∧
        object.constructor = some types ∧
        own.map Member.type = types.map some
  nodup : (object.members.map Member.name).Nodup

theorem ParameterEntry.mono {parameter : Parameter}
    (isEntry : ParameterEntry state parameter entry)
    (stays :
      ∀ id found,
        state.denotations.get? id = some found →
        after.denotations.get? id = some found) : ParameterEntry after parameter entry := by
  cases parameter with
  | named id name written =>
    obtain ⟨type, isEntry, denotes⟩ := isEntry
    exact ⟨type, isEntry, denotes.mono stays⟩
  | stray id => exact isEntry

theorem MemberEntry.mono {declaration : Declaration}
    (isEntry : MemberEntry state declaration entry)
    (stays :
      ∀ id found,
        state.denotations.get? id = some found →
        after.denotations.get? id = some found)
    (rows : state.registry.shapes.toList <+: after.registry.shapes.toList) :
    MemberEntry after declaration entry := by
  cases declaration with
  | value id mutable name written initial =>
    obtain ⟨type, isEntry, denotes⟩ := isEntry
    refine ⟨type, isEntry, ?_⟩
    cases denotes with
    | some denotes => exact .some (denotes.mono stays)
    | none => exact .none
  | function id name parameters result body =>
    obtain ⟨type, types, resultType, isEntry, denotes, shape⟩ := isEntry
    exact ⟨type, types, resultType, isEntry, denotes.mono stays,
      Registry.shape?_of_longer rows shape⟩
  | classType id name parameters members => exact isEntry
  | stray id => exact isEntry

section Class

variable {id : NodeId} {selfType : TypeId} {owner : String} {object : ObjectType}
variable {parameters : List Parameter} {members : List Declaration}

theorem advances_addMember {node : NodeId} (isClass : classes.get? id = some selfType) :
    Advances classes [id, node] (addMember selfType owner node entry) fun state _ after =>
      ∀ object,
        state.registry.object? selfType = some object →
        (object.members.map Member.name).Nodup →
        after.context = state.context ∧
          after.registry.object? selfType =
            some { object with members := object.members ++ [entry] } ∧
          ((object.members ++ [entry]).map Member.name).Nodup := by
  have adds : Advances classes [id]
      (modifyGet fun state =>
        ((state.registry.addMember selfType entry).1,
          { state with registry := (state.registry.addMember selfType entry).2 }))
      fun state free after =>
        after = { state with registry := (state.registry.addMember selfType entry).2 } ∧
          free = (state.registry.addMember selfType entry).1 := by
    refine ⟨fun state known => ?_, fun _ _ _ _ => ⟨rfl, rfl⟩⟩
    show Progress [id] state { state with registry := (state.registry.addMember selfType entry).2 }
    unfold Registry.addMember
    split
    · exact .refl state
    · split
      · exact .refl state
      · exact .modifyObject (List.mem_singleton_self id) (known ▸ isClass)
  have reports : ∀ free : Bool,
      Advances classes [node] (unless free do report (.duplicateMember entry.name owner) node)
        fun state _ after => free = true ∧ after = state := by
    intro free
    cases free with
    | true => exact (Advances.pure fun _ => ⟨rfl, rfl⟩).within (by grind)
    | false => exact .report
  refine .bind adds fun free => (reports free).imp ?_
  rintro middle _ _ _ ⟨rfl, rfl⟩ state _ _ ⟨rfl, isFree⟩ object isObject nodup
  have free : (object.member? entry.name).isSome ≠ true := by
    intro taken
    simp [Registry.addMember, isObject, taken] at isFree
  have added : state.registry.addMember selfType entry =
      (true, state.registry.modifyObject selfType fun object =>
        { object with members := object.members ++ [entry] }) := by
    simp [Registry.addMember, isObject, free]
  simp only [added]
  refine ⟨trivial, Registry.object?_modifyObject isObject, ?_⟩
  rw [List.map_append, List.nodup_append]
  refine ⟨nodup, by simp, ?_⟩
  intro name member other isOther same
  obtain rfl : other = entry.name := by simpa using isOther
  obtain ⟨found, isFound, rfl⟩ := List.mem_map.mp member
  exact free (List.find?_isSome.mpr ⟨found, isFound, by simpa using same⟩)

theorem advances_addParameters (clean : ∀ parameter ∈ parameters, parameter.Clean allowed)
    (isClass : classes.get? id = some selfType) :
    Advances classes (id :: parameters.flatMap Parameter.ids)
      (addParameters selfType owner parameters) fun state types after =>
        ∀ object,
          state.registry.object? selfType = some object →
          (object.members.map Member.name).Nodup →
          after.context = state.context ∧
            ∃ own,
              after.registry.object? selfType =
                  some { object with members := object.members ++ own } ∧
                ((object.members ++ own).map Member.name).Nodup ∧
                List.Forall₂ (ParameterEntry after) parameters own ∧
                own.map Member.type = types.map some := by
  induction parameters with
  | nil =>
    refine .within (.pure fun state object isObject nodup => ?_)
    exact ⟨rfl, [], by simpa using isObject, by simpa using nodup, .nil, rfl⟩
  | cons first rest ih =>
    rw [List.forall_mem_cons] at clean
    cases first with
    | stray node => exact absurd clean.1 (by simp [Parameter.Clean])
    | named node name written =>
      refine .within (.bind (yields_resolve written clean.1.2).advances fun type =>
        .bind (advances_addMember isClass) fun _ => .bind (ih clean.2) fun types => .pure ?_)
        (by grind [Parameter.ids])
      rintro after added progressAfter _ entriesRest resolved progressAdded _ isAdded state _ _
        ⟨step, sameContext, denotes⟩ object isObject nodup
      obtain ⟨contextAdded, objectAdded, nodupAdded⟩ :=
        isAdded object (step.object? isObject) nodup
      obtain ⟨contextAfter, own, objectAfter, nodupAfter, entries, sameTypes⟩ :=
        entriesRest _ objectAdded nodupAdded
      have denotesAfter : written.Denotes after type :=
        (denotes _ (.refl _)).mono fun id found known =>
          progressAfter.denotations id found (progressAdded.denotations id found known)
      refine ⟨contextAfter.trans (contextAdded.trans sameContext.symm),
        ⟨name, some type, false⟩ :: own, ?_, ?_, .cons ⟨type, rfl, denotesAfter⟩ entries, ?_⟩
      · simpa using objectAfter
      · simpa using nodupAfter
      · simp [sameTypes]

theorem advances_addMembers (clean : Declaration.CleanMembers allowed members)
    (isClass : classes.get? id = some selfType) :
    Advances classes (id :: Declaration.idsOfAll members) (addMembers selfType owner members)
      fun state _ after =>
        ∀ object,
          state.registry.object? selfType = some object →
          (object.members.map Member.name).Nodup →
          after.context = state.context ∧
            ∃ inner,
              after.registry.object? selfType =
                  some { object with members := object.members ++ inner } ∧
                ((object.members ++ inner).map Member.name).Nodup ∧
                List.Forall₂ (MemberEntry after) members inner := by
  induction members with
  | nil =>
    refine .within (.pure fun state object isObject nodup => ?_)
    exact ⟨rfl, [], by simpa using isObject, by simpa using nodup, .nil⟩
  | cons first rest ih =>
    -- An entry that is found is then added before those of the rest.
    have adding : ∀ entry,
        Advances classes (id :: Declaration.idsOfAll (first :: rest))
          (addMember selfType owner first.id entry >>= fun _ => addMembers selfType owner rest)
          fun state _ after =>
            ∀ object,
              state.registry.object? selfType = some object →
              (object.members.map Member.name).Nodup →
              MemberEntry state first entry →
              after.context = state.context ∧
                ∃ inner,
                  after.registry.object? selfType =
                      some { object with members := object.members ++ inner } ∧
                    ((object.members ++ inner).map Member.name).Nodup ∧
                    List.Forall₂ (MemberEntry after) (first :: rest) inner := by
      intro entry
      have node := first.id_mem_ids
      refine .within (.bind (advances_addMember isClass) fun _ => (ih clean.2).imp ?_)
        (by grind)
      intro added _ after _ entriesRest state progressAdded progressAfter isAdded object isObject
        nodup isEntry
      obtain ⟨contextAdded, objectAdded, nodupAdded⟩ := isAdded object isObject nodup
      obtain ⟨contextAfter, inner, objectAfter, nodupAfter, entries⟩ :=
        entriesRest _ objectAdded nodupAdded
      have entryAfter : MemberEntry after first entry :=
        (isEntry.mono progressAdded.denotations progressAdded.shapes).mono progressAfter.denotations
          progressAfter.shapes
      refine ⟨contextAfter.trans contextAdded, entry :: inner, ?_, ?_, .cons entryAfter entries⟩
      · simpa using objectAfter
      · simpa using nodupAfter
    cases first with
    | value node mutable name written initial =>
      refine .within (.bind (yields_resolveOption written clean.1.2.2.1).advances
        fun type => (adding ⟨name, type, mutable⟩).imp ?_)
        (by grind)
      rintro resolved _ after _ added state _ _ ⟨step, sameContext, denotes⟩ object isObject nodup
      rw [sameContext]
      exact added object (step.object? isObject) nodup ⟨type, rfl, denotes _ (.refl _)⟩
    | function node name parameters result body =>
      refine .within (.bind (yields_signature clean.1.2.2.1).advances
        fun type => (adding ⟨name, some type, false⟩).imp ?_)
        (by grind)
      rintro resolved _ after _ added state _ _ ⟨step, sameContext, isSigned⟩ object isObject nodup
      obtain ⟨types, resultType, denotes, shape⟩ := isSigned _ (.refl _)
      rw [sameContext]
      exact added object (step.object? isObject) nodup
        ⟨type, types, resultType, rfl, denotes, shape⟩
    | classType node name parameters inner =>
      exact absurd clean.1.1 (by simp [Declaration.isLocal])
    | stray node => exact absurd clean.1.1 (by simp [Declaration.isLocal])

theorem advances_declareClass {name : String}
    (clean : Declaration.Clean allowed (.classType id name parameters members)) :
    Advances classes (Declaration.ids (.classType id name parameters members))
      (declareClass id name parameters members) fun state _ after =>
        ∀ selfType,
          state.classes.get? id = some selfType →
          state.registry.object? selfType = some ⟨name, .classInstance, [], none⟩ →
          after.context = state.context ∧
            ∃ object,
              after.registry.object? selfType = some object ∧
                ClassObject after (MemberEntry after) parameters members object := by
  refine .get fun read known => ?_
  split
  · next noClass =>
      refine .within (.pure ?_)
      rintro _ rfl selfType isClass
      simp [noClass] at isClass
  · next selfType isClass =>
      have isKnown : classes.get? id = some selfType := known ▸ isClass
      refine .within (.bind (advances_addParameters clean.2.1 isKnown) fun types =>
        .bind (.modifyObject isKnown) fun _ => (advances_addMembers clean.2.2 isKnown).imp ?_)
        (by grind)
      rintro constructed _ after _ isFilled added _ progressAfter rfl state _ progressConstructed
        isAdded rfl found isFound isObject
      obtain rfl := Option.some.inj (isClass.symm.trans isFound)
      obtain ⟨contextAdded, own, objectAdded, nodupAdded, entriesOwn, sameTypes⟩ :=
        isAdded _ isObject (by simp)
      obtain ⟨contextAfter, inner, objectAfter, nodupAfter, entriesInner⟩ :=
        isFilled _ (Registry.object?_modifyObject objectAdded) nodupAdded
      refine ⟨contextAfter.trans contextAdded, _, objectAfter,
        ⟨own, inner, types, by simp, ?_, entriesInner, rfl, sameTypes⟩, nodupAfter⟩
      exact entriesOwn.imp fun _ _ entry => entry.mono progressAfter.denotations

end Class

end Check

end Toolshed
