import Toolshed.Proofs.Typing.Declared

namespace Toolshed

/-!
# Initial values

Each initial value is checked in the context that the values before it have
left, and gives its type to a declaration without a written one.
-/

attribute [local grind =] Declaration.ids Declaration.idsOfAll

variable {final : CheckState} {whole larger : Context}

def Member.binding (member : Member) : String × Binding :=
  (member.name, ⟨member.type, .declared (.ofMutable member.mutable), none⟩)

def Context.enterClass (context : Context) (object : ObjectType) : Context :=
  ⟨⟨.classBody, object.members.map Member.binding⟩, context.scopes⟩

def ValueTyped
    (final : CheckState)
    (whole : Context)
    (written : Option TypeExpression)
    (initial : Expression)
    (type : TypeId) : Prop :=
  ∃ context found,
    context.Refines whole ∧
      initial.HasType final context found ∧
      ValueRule final found written type

theorem ValueTyped.mono {written : Option TypeExpression} {initial : Expression} {type : TypeId}
    (typed : ValueTyped final whole written initial type) (refines : whole.Refines larger) :
    ValueTyped final larger written initial type := by
  obtain ⟨context, found, toWhole, hasType, rule⟩ := typed
  exact ⟨context, found, toWhole.trans refines, hasType, rule⟩

def FunctionTyped
    (final : CheckState)
    (parameters : List Parameter)
    (result : Option TypeExpression)
    (type : TypeId) : Prop :=
  ∃ types resultType,
    SignatureDenotes final parameters result types resultType ∧
      final.registry.shape? type = some (.function types (resultType.getD .unit))

/-- The member that a declaration of a value or function gives its class. -/
def TypedEntry (final : CheckState) (whole : Context) : Declaration → Member → Prop
  | .value _ mutable name written initial, entry =>
    ∃ type,
      entry = ⟨name, some type, mutable⟩ ∧ ValueTyped final whole written initial type
  | .function _ name parameters result _, entry =>
    ∃ type,
      entry = ⟨name, some type, false⟩ ∧ FunctionTyped final parameters result type
  | _, _ => False

theorem TypedEntry.mono {declaration : Declaration} {entry : Member}
    (typed : TypedEntry final whole declaration entry) (refines : whole.Refines larger) :
    TypedEntry final larger declaration entry := by
  cases declaration with
  | value id mutable name written initial =>
    obtain ⟨type, isEntry, typed⟩ := typed
    exact ⟨type, isEntry, typed.mono refines⟩
  | function id name parameters result body => exact typed
  | classType id name parameters members => exact typed
  | stray id => exact typed

namespace ObjectType

variable {object : ObjectType} {member : Member}

theorem member?_of_mem (nodup : (object.members.map Member.name).Nodup)
    (isMember : member ∈ object.members) : object.member? member.name = some member := by
  unfold member?
  generalize object.members = members at nodup isMember
  induction members with
  | nil => simp at isMember
  | cons first rest ih =>
    simp only [List.map_cons, List.nodup_cons] at nodup
    rcases List.mem_cons.mp isMember with rfl | deeper
    · simp
    · have different : first.name ≠ member.name := fun same =>
        nodup.1 (same ▸ List.mem_map_of_mem deeper)
      simpa [different] using ih nodup.2 deeper

theorem members_setMemberType {front back : List Member} {type : TypeId}
    (isMembers : object.members = front ++ member :: back)
    (nodup : (object.members.map Member.name).Nodup) :
    (object.setMemberType member.name type).members =
      front ++ { member with type := some type } :: back := by
  have others : ∀ other ∈ front ++ back, other.name ≠ member.name := by
    intro other isOther same
    grind
  have unchanged : ∀ members ⊆ front ++ back,
      members.map (fun other : Member =>
        if other.name = member.name then { other with type := some type } else other) =
      members := by
    intro members subset
    refine (List.map_congr_left fun other isOther => ?_).trans (List.map_id members)
    simp [others other (subset isOther)]
  simp [setMemberType, isMembers, unchanged front (by simp), unchanged back (by simp)]

end ObjectType

namespace Context

variable {context refined : Context} {object : ObjectType} {name : String} {type : TypeId}

theorem Refines.enterClass (refines : context.Refines refined) :
    (context.enterClass object).Refines (refined.enterClass object) :=
  ⟨.refl _, .cons refines.innermost refines.outer⟩

theorem get?_enterClass :
    (context.enterClass object).innermost.get? name =
      (object.member? name).map fun member => member.binding.2 := by
  obtain ⟨title, kind, members, parameters⟩ := object
  simp only [enterClass, Scope.get?, ObjectType.member?]
  induction members with
  | nil => rfl
  | cons first rest ih =>
    simp only [List.map_cons, List.lookup_cons, Member.binding]
    by_cases same : first.name = name
    · simp [same]
    · have different : (name == first.name) = false := beq_eq_false_iff_ne.mpr (Ne.symm same)
      simpa [same, different, Member.binding] using ih

theorem has_enterClass (isMember : name ∈ object.members.map Member.name) :
    (context.enterClass object).innermost.has name = true := by
  rw [Scope.has_iff]
  simpa [enterClass, Member.binding] using isMember

theorem setType_enterClass (isMember : name ∈ object.members.map Member.name) :
    (context.enterClass object).setType name type =
      context.enterClass (object.setMemberType name type) := by
  rw [setType, if_pos (has_enterClass isMember)]
  simp only [enterClass, Scope.setType, ObjectType.setMemberType, List.map_map, mk.injEq,
    Scope.mk.injEq, true_and, and_true]
  refine List.map_congr_left fun member _ => ?_
  by_cases same : member.name = name
  · simp [Member.binding, same]
  · simp [Member.binding, same]

theorem Refines.setMember
    (missing : ∀ member, object.member? name = some member → member.type = none)
    (isMember : name ∈ object.members.map Member.name) :
    (context.enterClass object).Refines (context.enterClass (object.setMemberType name type)) := by
  rw [← setType_enterClass isMember, setType, if_pos (has_enterClass isMember)]
  refine ⟨Scope.Refines.setType ?_, (Refines.refl _).outer⟩
  intro binding bound
  rw [get?_enterClass] at bound
  obtain ⟨member, isFound, rfl⟩ := Option.map_eq_some_iff.mp bound
  exact missing member isFound

end Context

namespace Check

variable {allowed : String → Prop} {ids : List NodeId} {base : Nat}
variable {arena : Arena} {state after : CheckState}
variable {owner id : NodeId} {name : String} {selfType : TypeId} {object : ObjectType}
variable {members : List Declaration} {classes : Table TypeId}

theorem yields_initialValue {written : Option TypeExpression} {initial : Expression}
    (cleanType : ∀ type ∈ written, type.Clean allowed) (cleanInitial : initial.Clean allowed) :
    Yields Eq (written.toList.flatMap TypeExpression.ids ++ initial.ids) initial.ids
      (initialValue arena owner name written initial) fun context type _ final =>
        ∃ found,
          initial.HasType final context found ∧ ValueRule final found written type := by
  have node := initial.id_mem_ids
  refine .inUnit (.within (.next (yields_expression arena initial cleanInitial) fun found =>
    (yields_initialised cleanType).imp ?_) (by grind))
  exact fun _ _ _ _ rule typed => ⟨found, typed, rule⟩

structure MembersValued
    (before : CheckState)
    (outside : Context)
    (selfType : TypeId)
    (object : ObjectType)
    (front : List Member)
    (members : List Declaration)
    (after : CheckState) : Prop where
  grows : before.registry.Grows after.registry
  filled :
    ∃ back,
      after.registry.object? selfType = some { object with members := front ++ back } ∧
        after.context = outside.enterClass { object with members := front ++ back } ∧
        (outside.enterClass object).Refines
          (outside.enterClass { object with members := front ++ back }) ∧
        (front ++ back).map Member.name = object.members.map Member.name ∧
        ∀ final, Later (members.flatMap Declaration.valueIds) after final →
          List.Forall₂
            (TypedEntry final (outside.enterClass { object with members := front ++ back }))
            members back

structure MembersWaiting
    (state : CheckState)
    (outside : Context)
    (selfType : TypeId)
    (object : ObjectType)
    (front : List Member)
    (members : List Declaration) : Prop where
  isObject : state.registry.object? selfType = some object
  isContext : state.context = outside.enterClass object
  different : (object.members.map Member.name).Nodup
  entries :
    ∃ waiting,
      object.members = front ++ waiting ∧ List.Forall₂ (MemberEntry state) members waiting

attribute [local simp] Declaration.valueIds

theorem advances_memberValues (clean : Declaration.CleanMembers allowed members)
    (nodup : (owner :: Declaration.idsOfAll members).Nodup)
    (isClass : classes.get? owner = some selfType) :
    Advances classes (owner :: Declaration.idsOfAll members)
      (memberValues arena owner selfType members) fun state _ after =>
        ∀ outside object front,
          MembersWaiting state outside selfType object front members →
          MembersValued state outside selfType object front members after := by
  induction members with
  | nil =>
    refine .within (.pure fun state outside object front waiting => ?_)
    obtain ⟨_, isMembers, entries⟩ := waiting.entries
    obtain rfl := List.forall₂_nil_left_iff.mp entries
    refine ⟨.refl _, [], ?_⟩
    rw [← isMembers]
    exact ⟨waiting.isObject, waiting.isContext, .refl _, rfl, fun _ _ => .nil⟩
  | cons first rest ih =>
    simp only [Declaration.idsOfAll] at nodup
    -- The first member has its type, and the rest of them are still waiting.
    have rests : Advances classes (owner :: Declaration.idsOfAll rest)
        (memberValues arena owner selfType rest) fun middle _ after =>
          ∀ (state : CheckState) outside object front entry others typed,
            MembersWaiting state outside selfType object front (first :: rest) →
            object.members = front ++ entry :: others →
            List.Forall₂ (MemberEntry state) rest others →
            Progress (owner :: first.ids) state middle →
            state.registry.Grows middle.registry →
            middle.registry.object? selfType =
              some { object with members := front ++ typed :: others } →
            middle.context =
              outside.enterClass { object with members := front ++ typed :: others } →
            (outside.enterClass object).Refines
              (outside.enterClass { object with members := front ++ typed :: others }) →
            typed.name = entry.name →
            (∀ final, Later first.valueIds middle final →
              TypedEntry final
                (outside.enterClass { object with members := front ++ typed :: others })
                first typed) →
            MembersValued state outside selfType object front (first :: rest) after := by
      refine (ih clean.2 (by grind)).imp ?_
      intro middle _ after progressRest found state outside object front entry others typed waiting
        isMembers entriesRest progress grows objectMiddle contextMiddle refines sameName isTyped
      have sameNames : (front ++ typed :: others).map Member.name =
          object.members.map Member.name := by
        simp [isMembers, sameName]
      obtain ⟨growsRest, back, objectAfter, contextAfter, refinesAfter, namesAfter, typedRest⟩ :=
        found outside { object with members := front ++ typed :: others } (front ++ [typed])
          ⟨objectMiddle, contextMiddle, sameNames ▸ waiting.different, others, by simp,
            entriesRest.imp fun _ _ entry => entry.mono progress.denotations progress.shapes⟩
      rw [List.append_assoc] at *
      refine ⟨grows.trans growsRest, typed :: back, objectAfter, contextAfter,
        refines.trans refinesAfter, namesAfter.trans sameNames, fun final later => ?_⟩
      have isInside := first.valueIds_sublist.subset
      have laterFirst : Later first.valueIds middle final :=
        (later.mono (by simp)).back progressRest.toTrace growsRest (by grind)
      exact .cons ((isTyped final laterFirst).mono refinesAfter)
        (typedRest final (later.mono (by simp)))
    cases first with
    | classType node name parameters inner =>
      exact absurd clean.1.1 (by simp [Declaration.isLocal])
    | stray node => exact absurd clean.1.1 (by simp [Declaration.isLocal])
    | function node name parameters result body =>
      refine (rests.imp ?_).within (by grind)
      intro state _ after _ found outside object front waiting
      obtain ⟨_, isMembers, entries⟩ := waiting.entries
      obtain ⟨_, others, ⟨type, types, resultType, rfl, denotes, shape⟩, entriesRest, rfl⟩ :=
        List.forall₂_cons_left_iff.mp entries
      refine found state outside object front _ others ⟨name, some type, false⟩ waiting isMembers
        entriesRest (.refl _) (.refl _) ?_ ?_ ?_ rfl fun final later => ?_
      · rw [← isMembers]
        exact waiting.isObject
      · rw [← isMembers]
        exact waiting.isContext
      · rw [← isMembers]
        exact .refl _
      · exact ⟨type, rfl, types, resultType, denotes.mono later.denotations,
          Registry.shape?_of_longer later.registry.shapes shape⟩
    | value node mutable name written initial =>
      simp only [Declaration.ids] at nodup
      have value : Yields Eq (written.toList.flatMap TypeExpression.ids ++ initial.ids) initial.ids
          (initialValue arena owner name written initial) _ :=
        yields_initialValue clean.1.2.2.1 clean.1.2.2.2
      cases written with
      | some written =>
        refine .within (.bind (value.advances (by grind)) fun type => rests.imp ?_)
          (by grind)
        rintro checked _ after _ found state progress _ ⟨step, sameContext, typed⟩ outside object
          front waiting
        obtain ⟨_, isMembers, entries⟩ := waiting.entries
        obtain ⟨_, others, ⟨type, rfl, denotes⟩, entriesRest, rfl⟩ :=
          List.forall₂_cons_left_iff.mp entries
        cases denotes with
        | @some _ type denotes =>
          have same : { object with members := front ++ ⟨name, some type, mutable⟩ :: others } =
              object := by
            rw [← isMembers]
          refine found state outside object front _ others ⟨name, some type, mutable⟩ waiting
            isMembers entriesRest (progress.mono (by grind))
            (Registry.grows_of_shapes step.shapes step.objects)
            (by rw [same]; exact step.object? waiting.isObject)
            (by rw [same, ← sameContext, waiting.isContext]) (by rw [same]; exact .refl _) rfl
            fun final later => ?_
          obtain ⟨initialType, hasType, rule⟩ :=
            typed final (later.mono (by simp))
          cases rule with
          | written denoted fits =>
            have denotesLater := (denotes.mono step.denotations).mono later.denotations
            obtain rfl := denotesLater.unique denoted
            refine ⟨type, rfl, _, initialType, ?_, waiting.isContext ▸ hasType,
              .written denoted fits⟩
            rw [same]
            exact .refl _
      | none =>
        refine .within (.bind (value.advances (by grind)) fun found =>
          .bind (.modifyObject isClass) fun _ => .bind .context fun _ => rests.imp ?_)
          (by grind)
        rintro _ _ after _ valued _ progressName _ rfl checked progressSet _ rfl state progress _
          ⟨step, sameContext, typed⟩ outside object front waiting
        obtain ⟨_, isMembers, entries⟩ := waiting.entries
        obtain ⟨_, others, ⟨type, rfl, denotes⟩, entriesRest, rfl⟩ :=
          List.forall₂_cons_left_iff.mp entries
        cases denotes
        have isMember : (⟨name, none, mutable⟩ : Member) ∈ object.members := by
          simp [isMembers]
        have isName : name ∈ object.members.map Member.name :=
          List.mem_map_of_mem isMember
        have missing : ∀ member,
            object.member? name = some member → member.type = none := by
          intro member found
          have own := ObjectType.member?_of_mem waiting.different isMember
          obtain rfl := Option.some.inj (own.symm.trans found)
          rfl
        have fills : object.setMemberType name found =
            { object with members := front ++ ⟨name, some found, mutable⟩ :: others } := by
          rw [← ObjectType.members_setMemberType isMembers waiting.different]
          rfl
        have progressBoth := (progressSet.mono (List.subset_append_left _ [])).trans
          (progressName.mono (List.nil_subset _))
        have growsSet : checked.registry.Grows
            (checked.registry.setMemberType selfType name found) := by
          refine Registry.grows_modifyObject fun other isOther => ?_
          obtain rfl := Option.some.inj ((step.object? waiting.isObject).symm.trans isOther)
          exact .setMemberType missing
        have refinesSet : (outside.enterClass object).Refines (outside.enterClass
            { object with members := front ++ ⟨name, some found, mutable⟩ :: others }) := by
          rw [← fills]
          exact .setMember missing isName
        refine valued state outside object front _ others ⟨name, some found, mutable⟩ waiting
          isMembers entriesRest ((progress.mono (by grind)).trans
            (progressBoth.mono (by simp)))
          ((Registry.grows_of_shapes step.shapes step.objects).trans growsSet)
          ?_ ?_ refinesSet rfl fun final later => ?_
        · rw [← fills]
          exact Registry.object?_modifyObject (step.object? waiting.isObject)
        · rw [← sameContext, waiting.isContext, Context.setType_enterClass isName, fills]
        · have laterChecked : Later initial.ids checked final := by
            refine (later.mono ?_).back progressBoth.toTrace growsSet ?_
            · simp
            · grind
          obtain ⟨initialType, hasType, rule⟩ := typed final laterChecked
          exact ⟨found, rfl, _, initialType, refinesSet, waiting.isContext ▸ hasType, rule⟩

theorem extends_bindMembers (members : List Member) : Extends ids (bindMembers members) := by
  induction members with
  | nil => exact Frames.pure
  | cons first rest ih =>
    exact .bind extends_define fun _ => ih

theorem stateAfter_bindMembers (members : List Member) (state : CheckState)
    (different : (state.context.names ++ members.map Member.name).Nodup) :
    stateAfter (bindMembers members) state =
      { state with context := state.context.extend (members.map Member.binding) } := by
  induction members generalizing state with
  | nil =>
    rw [List.map_nil, Context.extend_nil]
    rfl
  | cons first rest ih =>
    rw [List.map_cons, ← List.singleton_append, ← List.append_assoc] at different
    have free : first.name ∉ state.context.names := by grind
    have defined : state.context.define first.name first.binding.2 =
        (true, state.context.extend [first.binding]) :=
      Context.define_eq_true_iff.mpr ⟨free, rfl⟩
    have later := ih
      { state with context := state.context.extend [first.binding] } (by
        rw [Context.names_extend]
        exact different)
    rw [Context.extend_append] at later
    exact (congrArg (fun defined : Bool × Context =>
      stateAfter (bindMembers rest) { state with context := defined.2 }) defined).trans later

theorem advances_bindMembers (members : List Member) :
    Advances classes [] (bindMembers members) fun state _ after =>
      (state.context.names ++ members.map Member.name).Nodup →
      after = { state with context := state.context.extend (members.map Member.binding) } :=
  ⟨fun state _ => .of_step (extends_bindMembers members state).1,
    fun state _ _ _ => stateAfter_bindMembers members state⟩

theorem advances_inDeclaredClass {check : TypeId → Check Unit}
    {found : TypeId → CheckState → Unit → CheckState → Prop}
    (inner :
      ∀ selfType,
        classes.get? id = some selfType →
        Advances classes ids (check selfType) (found selfType)) :
    Advances classes ids (inDeclaredClass id check) fun state _ after =>
      ∀ selfType object,
        state.classes.get? id = some selfType →
        state.registry.object? selfType = some object →
        (object.members.map Member.name).Nodup →
        ∃ inside,
          found selfType { state with context := state.context.enterClass object } () inside ∧
            after = { inside with context := inside.context.pop } := by
  refine .get fun read known => ?_
  split
  · next noClass =>
      refine .within (.pure ?_)
      rintro _ rfl selfType _ isClass
      simp [noClass] at isClass
  · next selfType isClass =>
      have entered : Advances classes ids
          (MonadState.get >>= fun state =>
            bindMembers (((state.registry.object? selfType).map ObjectType.members).getD [])
              >>= fun _ => check selfType)
          fun state _ after =>
            ∀ object,
              state.registry.object? selfType = some object →
              (state.context.names ++ object.members.map Member.name).Nodup →
              found selfType
                { state with
                  context := state.context.extend (object.members.map Member.binding) }
                () after := by
        refine .get fun opened _ => .bind (advances_bindMembers _) fun _ =>
          (inner selfType (known ▸ isClass)).imp ?_
        rintro middle _ after _ holds state _ _ isBound rfl object isObject different
        simp only [isObject] at isBound
        exact isBound different ▸ holds
      refine entered.inScope.imp ?_
      rintro _ _ _ _ ⟨inside, holds, rfl⟩ rfl _ object isFound isObject different
      obtain rfl := Option.some.inj (isClass.symm.trans isFound)
      exact ⟨inside, holds object isObject (by simpa [Context.names, Context.push] using different),
        rfl⟩

def Valued (final state : CheckState) : Declaration → Prop
  | .value id mutable name written initial =>
    ∃ type,
      state.context.innermost.get? name =
          some ⟨some type, .declared (.ofMutable mutable), some id⟩ ∧
        ValueTyped final state.context written initial type
  | .function id name parameters result _ =>
    ∃ type,
      state.context.innermost.get? name = some ⟨some type, .declared .function, some id⟩ ∧
        FunctionTyped final parameters result type
  | .classType id name parameters members =>
    ∃ nameType selfType object,
      state.context.innermost.get? name =
          some ⟨some nameType, .declared .classType, some id⟩ ∧
        state.registry.shape? nameType = some (.typeName selfType) ∧
        state.classes.get? id = some selfType ∧
        state.registry.object? selfType = some object ∧
        ClassObject final (TypedEntry final (state.context.enterClass object)) parameters members
          object
  | .stray _ => False

theorem Valued.mono {before : CheckState} {declaration : Declaration}
    (valued : Valued final before declaration) (progress : Progress ids before after)
    (apart : Apart base before) (fresh : declaration.id ∉ ids)
    (refines : before.context.Refines after.context)
    (sameName :
      ∀ name ∈ declaration.names,
        after.context.innermost.get? name = before.context.innermost.get? name) :
    Valued final after declaration := by
  cases declaration with
  | value id mutable name written initial =>
    obtain ⟨type, bound, typed⟩ := valued
    exact ⟨type, (sameName name (by simp [Declaration.names, exported?])).trans bound,
      typed.mono refines⟩
  | function id name parameters result body =>
    obtain ⟨type, bound, typed⟩ := valued
    exact ⟨type, (sameName name (by simp [Declaration.names, exported?])).trans bound, typed⟩
  | stray id => exact valued.elim
  | classType id name parameters members =>
    obtain ⟨nameType, selfType, object, bound, shape, isClass, isObject, entries⟩ := valued
    exact ⟨nameType, selfType, object,
      (sameName name (by simp [Declaration.names, exported?])).trans bound,
      Registry.shape?_of_longer progress.shapes shape, progress.classes ▸ isClass,
      progress.object? apart isClass fresh isObject,
      entries.mono (fun _ _ entry => entry.mono refines.enterClass) fun _ _ denotes => denotes⟩

theorem advances_classValues {parameters : List Parameter}
    (clean : Declaration.Clean allowed (.classType id name parameters members))
    (nodup : (Declaration.ids (.classType id name parameters members)).Nodup) :
    Advances classes (id :: Declaration.idsOfAll members)
      (inDeclaredClass id fun selfType => memberValues arena id selfType members)
      fun state _ after =>
        Declared state (.classType id name parameters members) →
        after.context = state.context ∧
          state.registry.Grows after.registry ∧
          ∀ final, Later (members.flatMap Declaration.valueIds) after final →
            Valued final after (.classType id name parameters members) := by
  simp only [Declaration.ids] at nodup
  refine (advances_inDeclaredClass fun selfType isClass =>
    advances_memberValues clean.2.2 (by grind) isClass).imp ?_
  intro state _ after progress isValued declared
  obtain ⟨nameType, selfType, object, bound, shape, isClass, isObject,
    ⟨own, inner, types, isMembers, ownEntries, innerEntries, isConstructor, sameTypes⟩,
    different⟩ := declared
  obtain ⟨inside, values, rfl⟩ := isValued selfType object isClass isObject different
  obtain ⟨grows, back, objectAfter, contextAfter, refines, sameNames, typed⟩ :=
    values state.context object own ⟨isObject, rfl, different, inner, isMembers,
      innerEntries.imp fun _ _ entry => entry.mono (fun _ _ denotes => denotes) List.prefix_rfl⟩
  have popped : inside.context.pop = state.context := by
    rw [contextAfter]
    rfl
  refine ⟨popped, grows, fun final later => ?_⟩
  refine ⟨nameType, selfType, { object with members := own ++ back }, ?_,
    Registry.shape?_of_longer progress.shapes shape, progress.classes ▸ isClass, objectAfter,
    ⟨own, back, types, rfl, ?_, ?_, isConstructor, sameTypes⟩, ?_⟩
  · rw [popped]
    exact bound
  · exact ownEntries.imp fun _ _ entry => entry.mono fun node found denotes =>
      later.denotations node found (progress.denotations node found denotes)
  · rw [popped]
    exact typed final later.withoutContext
  · exact sameNames ▸ different

structure AllValued
    (before : CheckState)
    (declarations : List Declaration)
    (after : CheckState) : Prop where
  retypes :
    before.context.Retypes (declarations.flatMap Declaration.names) after.context
  refines : before.context.Refines after.context
  grows : before.registry.Grows after.registry
  valued :
    ∀ final, Later (declarations.flatMap Declaration.topValueIds) after final →
      ∀ declaration ∈ declarations, Valued final after declaration

theorem advances_initialValues {declarations : List Declaration} (base : Nat)
    (clean : CleanDeclarations allowed declarations)
    (nodup : (Declaration.idsOfAll declarations).Nodup) :
    Advances classes (Declaration.idsOfAll declarations) (initialValues arena declarations)
      fun state _ after =>
        Standing base Declared state declarations → AllValued state declarations after := by
  induction declarations with
  | nil => exact .pure fun _ _ => ⟨.refl _, .refl _, .refl _, by simp⟩
  | cons first rest ih =>
    simp only [List.forall_mem_cons] at clean
    simp only [Declaration.idsOfAll] at nodup
    -- The first declaration has its type, and keeps it while the others get theirs.
    have rests : Advances classes (Declaration.idsOfAll rest) (initialValues arena rest)
        fun middle _ after =>
          ∀ state : CheckState,
            Standing base Declared state (first :: rest) →
            Progress first.ids state middle →
            state.context.Retypes first.names middle.context →
            state.context.Refines middle.context →
            state.registry.Grows middle.registry →
            (∀ final, Later first.topValueIds middle final → Valued final middle first) →
            AllValued state (first :: rest) after := by
      refine (ih clean.2 (by grind)).imp ?_
      intro middle _ after progressRest found state standing progress retypes refines grows isFirst
      obtain ⟨retypesRest, refinesRest, growsRest, valued⟩ :=
        found (standing.others (fun _ _ fresh sameName declared =>
          declared.mono progress standing.apart fresh sameName) progress retypes)
      refine ⟨(retypes.mono (by simp)).trans (retypesRest.mono (by simp)),
        refines.trans refinesRest, grows.trans growsRest, fun final later => ?_⟩
      refine List.forall_mem_cons.mpr ⟨?_, valued final (later.mono (by simp))⟩
      have isInside := first.topValueIds_sublist.subset
      have laterFirst : Later first.topValueIds middle final :=
        (later.mono (by simp)).back progressRest.toTrace growsRest (by grind)
      exact (isFirst final laterFirst).mono progressRest (progress.apart standing.apart)
        standing.first_not_mem refinesRest
        fun name isName => retypesRest.others name (standing.names_not_mem isName)
    cases first with
    | stray id => exact absurd clean.1 (by simp [Declaration.Clean])
    | function id name parameters result body =>
      refine (rests.imp ?_).within (by grind)
      intro state _ after _ found standing
      obtain ⟨type, types, resultType, bound, denotes, shape⟩ :=
        standing.holds _ List.mem_cons_self
      refine found state standing (.refl _) (.refl _) (.refl _) (.refl _) fun final later => ?_
      exact ⟨type, bound, types, resultType, denotes.mono later.denotations,
        Registry.shape?_of_longer later.registry.shapes shape⟩
    | classType id name parameters members =>
      refine .within (.bind (advances_classValues clean.1 (by grind)) fun _ =>
        rests.imp ?_) (by grind)
      intro middle _ after _ found state progress _ isValued standing
      obtain ⟨sameContext, grows, valued⟩ := isValued (standing.holds _ List.mem_cons_self)
      exact found state standing (progress.mono (by simp [Declaration.ids])) (sameContext ▸ .refl _)
        (sameContext ▸ .refl _) grows valued
    | value id mutable name written initial =>
      simp only [Declaration.ids] at nodup
      have value : Yields Eq (written.toList.flatMap TypeExpression.ids ++ initial.ids) initial.ids
          (initialValue arena id name written initial) _ :=
        yields_initialValue clean.1.2.1 clean.1.2.2
      cases written with
      | some written =>
        refine .within (.bind (value.advances (by grind)) fun _ => rests.imp ?_)
          (by grind)
        rintro middle _ after _ found state progress _ ⟨step, sameContext, typed⟩ standing
        obtain ⟨type, bound, denotes⟩ := standing.holds _ List.mem_cons_self
        cases denotes with
        | @some _ type denotes =>
          refine found state standing (progress.mono (by simp [Declaration.ids]))
            (sameContext ▸ .refl _) (sameContext ▸ .refl _)
            (Registry.grows_of_shapes step.shapes step.objects) fun final later => ?_
          obtain ⟨initialType, hasType, rule⟩ :=
            typed final (later.mono (by simp [Declaration.topValueIds]))
          cases rule with
          | written denoted fits =>
            have denotesLater := (denotes.mono step.denotations).mono later.denotations
            obtain rfl := denotesLater.unique denoted
            refine ⟨type, by rw [← sameContext]; exact bound, state.context, initialType,
              sameContext ▸ .refl _, hasType, .written denoted fits⟩
      | none =>
        refine .within (.bind (value.advances (by grind)) fun found =>
          .bind advances_setTopType fun _ => rests.imp ?_)
          (by grind)
        rintro middle _ after _ valued checked progressSet _ isSet state progress _
          ⟨step, sameContext, typed⟩ standing
        obtain ⟨type, bound, denotes⟩ := standing.holds _ List.mem_cons_self
        cases denotes
        have boundChecked : checked.context.innermost.get? name =
            some ⟨none, .declared (.ofMutable mutable), some id⟩ := by
          rw [← sameContext]
          exact bound
        obtain ⟨isMiddle, retypes, typedName⟩ := isSet _
          (step.declared ▸ standing.declared _ List.mem_cons_self) boundChecked
        have refines : state.context.Refines middle.context := by
          rw [sameContext, isMiddle]
          refine ⟨Scope.Refines.setType fun binding isBound => ?_, (Context.Refines.refl _).outer⟩
          obtain rfl := Option.some.inj (boundChecked.symm.trans isBound)
          rfl
        have growsSet : checked.registry.Grows middle.registry := by
          rw [isMiddle]
          exact .refl _
        refine valued state standing ((progress.mono (by simp [Declaration.ids])).trans
          (progressSet.mono (by simp))) (sameContext ▸ retypes) refines
          ((Registry.grows_of_shapes step.shapes step.objects).trans growsSet)
          fun final later => ?_
        have laterChecked : Later initial.ids checked final := by
          rw [isMiddle] at later
          exact later.withoutContext.mono
            (by simp [Declaration.topValueIds])
        obtain ⟨initialType, hasType, rule⟩ := typed final laterChecked
        exact ⟨found, typedName, state.context, initialType, refines, hasType, rule⟩

end Check

end Toolshed
