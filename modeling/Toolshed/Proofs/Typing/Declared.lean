import Toolshed.Proofs.Typing.ClassType

namespace Toolshed

/-!
# Declarations with their written types

After the types that are written on the declarations of a module have been
looked at, only values without a written type are left without one.
-/

attribute [local grind =] Declaration.ids Declaration.idsOfAll

structure Context.Retypes (changed : List String) (before after : Context) : Prop where
  outer : after.outer = before.outer
  kind : after.innermost.kind = before.innermost.kind
  names : after.names = before.names
  others : ∀ name, name ∉ changed → after.innermost.get? name = before.innermost.get? name

namespace Context.Retypes

variable {changed more : List String} {before middle after : Context}

theorem refl (context : Context) : Retypes changed context context :=
  ⟨rfl, rfl, rfl, fun _ _ => rfl⟩

theorem trans (first : Retypes changed before middle) (second : Retypes changed middle after) :
    Retypes changed before after :=
  ⟨second.outer.trans first.outer, second.kind.trans first.kind, second.names.trans first.names,
    fun name other => (second.others name other).trans (first.others name other)⟩

theorem mono (retypes : Retypes changed before after) (subset : changed ⊆ more) :
    Retypes more before after :=
  ⟨retypes.outer, retypes.kind, retypes.names,
    fun name other => retypes.others name fun member => other (subset member)⟩

theorem setType {context : Context} {name : String} {type : TypeId} :
    Retypes [name] context ⟨context.innermost.setType name type, context.outer⟩ := by
  refine ⟨rfl, rfl, Scope.names_setType, fun other different => ?_⟩
  have apart : other ≠ name := by simpa using different
  simp [Scope.get?_setType, apart]

end Context.Retypes

namespace Check

variable {allowed : String → Prop} {ids : List NodeId} {base : Nat}
variable {state before after : CheckState}
variable {id : NodeId} {object : ObjectType} {declaration : Declaration} {classes : Table TypeId}

def Declared (state : CheckState) : Declaration → Prop
  | .value id mutable name written _ =>
    ∃ type,
      state.context.innermost.get? name =
          some ⟨type, .declared (.ofMutable mutable), some id⟩ ∧
        Option.Rel (TypeExpression.Denotes state) written type
  | .function id name parameters result _ =>
    ∃ type types resultType,
      state.context.innermost.get? name = some ⟨some type, .declared .function, some id⟩ ∧
        SignatureDenotes state parameters result types resultType ∧
        state.registry.shape? type = some (.function types (resultType.getD .unit))
  | .classType id name parameters members =>
    ∃ nameType selfType object,
      state.context.innermost.get? name =
          some ⟨some nameType, .declared .classType, some id⟩ ∧
        state.registry.shape? nameType = some (.typeName selfType) ∧
        state.classes.get? id = some selfType ∧
        state.registry.object? selfType = some object ∧
        ClassObject state (MemberEntry state) parameters members object
  | .stray _ => False

def Awaiting (state : CheckState) (declaration : Declaration) : Prop :=
  ∃ entry,
    Names state declaration entry ∧
      state.context.innermost.get? entry.1 = some entry.2

theorem Progress.object? (progress : Progress ids before after) (apart : Apart base before)
    {selfType : TypeId} (isClass : before.classes.get? id = some selfType) (fresh : id ∉ ids)
    (isObject : before.registry.object? selfType = some object) :
    after.registry.object? selfType = some object := by
  obtain ⟨number, isNumber, inObjects⟩ := Option.bind_eq_some_iff.mp isObject
  have inside := (Array.getElem?_eq_some_iff.mp inObjects).1
  have sameNumber := Registry.objectId?_of_longer progress.shapes isNumber
  have unchanged : after.registry.objects[number.index]? = some object := by
    rw [progress.objects number.index inside ?_, inObjects]
    intro other member same
    have own : after.classObject? id = some number := by
      simp [CheckState.classObject?, progress.classes, isClass, sameNumber]
    obtain rfl := (progress.apart apart).distinct other id number same own
    exact fresh member
  simp [Registry.object?, sameNumber, unchanged]

attribute [local simp] Declaration.names

theorem Awaiting.mono (awaiting : Awaiting before declaration)
    (progress : Progress ids before after) (apart : Apart base before)
    (fresh : declaration.id ∉ ids)
    (sameName :
      ∀ name ∈ declaration.names,
        after.context.innermost.get? name = before.context.innermost.get? name) :
    Awaiting after declaration := by
  obtain ⟨entry, names, bound⟩ := awaiting
  cases declaration with
  | value id mutable name written initial =>
    obtain rfl := names
    exact ⟨_, rfl, (sameName name (by simp [exported?])).trans bound⟩
  | function id name parameters result body =>
    obtain rfl := names
    exact ⟨_, rfl, (sameName name (by simp [exported?])).trans bound⟩
  | stray id => exact names.elim
  | classType id name parameters members =>
    obtain ⟨selfType, nameType, rfl, shape, isClass, isObject⟩ := names
    exact ⟨_, ⟨selfType, nameType, rfl, Registry.shape?_of_longer progress.shapes shape,
      progress.classes ▸ isClass, progress.object? apart isClass fresh isObject⟩,
      (sameName name (by simp [exported?])).trans bound⟩

theorem ClassObject.mono {entry : Declaration → Member → Prop} {parameters : List Parameter}
    {members : List Declaration} (isClass : ClassObject before entry parameters members object)
    {weaker : Declaration → Member → Prop}
    (implies : ∀ declaration member, entry declaration member → weaker declaration member)
    (stays :
      ∀ id found,
        before.denotations.get? id = some found →
        after.denotations.get? id = some found) :
    ClassObject after weaker parameters members object := by
  obtain ⟨⟨own, inner, types, isMembers, ownEntries, innerEntries, constructor, sameTypes⟩,
    nodup⟩ := isClass
  exact ⟨⟨own, inner, types, isMembers, ownEntries.imp fun _ _ isEntry => isEntry.mono stays,
    innerEntries.imp implies, constructor, sameTypes⟩, nodup⟩

theorem Declared.mono (declared : Declared before declaration)
    (progress : Progress ids before after) (apart : Apart base before)
    (fresh : declaration.id ∉ ids)
    (sameName :
      ∀ name ∈ declaration.names,
        after.context.innermost.get? name = before.context.innermost.get? name) :
    Declared after declaration := by
  cases declaration with
  | value id mutable name written initial =>
    obtain ⟨type, bound, denotes⟩ := declared
    refine ⟨type, (sameName name (by simp [exported?])).trans bound, ?_⟩
    cases denotes with
    | some denotes => exact .some (denotes.mono progress.denotations)
    | none => exact .none
  | function id name parameters result body =>
    obtain ⟨type, types, resultType, bound, denotes, shape⟩ := declared
    exact ⟨type, types, resultType,
      (sameName name (by simp [exported?])).trans bound,
      denotes.mono progress.denotations, Registry.shape?_of_longer progress.shapes shape⟩
  | stray id => exact declared.elim
  | classType id name parameters members =>
    obtain ⟨nameType, selfType, object, bound, shape, isClass, isObject, entries⟩ := declared
    exact ⟨nameType, selfType, object,
      (sameName name (by simp [exported?])).trans bound,
      Registry.shape?_of_longer progress.shapes shape, progress.classes ▸ isClass,
      progress.object? apart isClass fresh isObject,
      entries.mono (fun _ _ entry => entry.mono progress.denotations progress.shapes)
        progress.denotations⟩

theorem advances_setTopType {name : String} {type : TypeId} :
    Advances classes [] (setTopType id name type) fun state _ after =>
      ∀ binding,
        id ∈ state.declared →
        state.context.innermost.get? name = some binding →
        after =
            { state with
              context := ⟨state.context.innermost.setType name type, state.context.outer⟩ } ∧
          state.context.Retypes [name] after.context ∧
          after.context.innermost.get? name = some { binding with type := some type } := by
  refine .get fun read _ => ?_
  split
  · refine Advances.context.imp ?_
    rintro state _ _ _ rfl rfl binding _ bound
    have has : read.context.innermost.has name = true := by simp [Scope.has, bound]
    have changed : read.context.setType name type =
        ⟨read.context.innermost.setType name type, read.context.outer⟩ := by
      simp [Context.setType, has]
    simp only [changed]
    exact ⟨trivial, .setType, by simp [Scope.get?_setType, bound]⟩
  · next notDeclared =>
      refine .pure ?_
      rintro _ rfl binding isDeclared
      exact absurd (by simpa using isDeclared) notDeclared

structure Standing
    (base : Nat)
    (condition : CheckState → Declaration → Prop)
    (state : CheckState)
    (declarations : List Declaration) : Prop where
  nodup : (Declaration.idsOfAll declarations).Nodup
  different : (declarations.flatMap Declaration.names).Nodup
  apart : Apart base state
  declared : ∀ declaration ∈ declarations, declaration.id ∈ state.declared
  holds : ∀ declaration ∈ declarations, condition state declaration

namespace Standing

variable {condition : CheckState → Declaration → Prop} {first : Declaration}
variable {rest : List Declaration}

variable (standing : Standing base condition before (first :: rest))
include standing

theorem first_not_mem :
    first.id ∉ Declaration.idsOfAll rest := by
  have nodup := standing.nodup
  have := first.id_mem_ids
  simp only [Declaration.idsOfAll] at nodup
  grind

theorem names_not_mem {name : String}
    (isName : name ∈ first.names) : name ∉ rest.flatMap Declaration.names := by
  have different := standing.different
  grind

theorem others
    (stays :
      ∀ declaration ∈ rest,
        declaration.id ∉ first.ids →
        (∀ name ∈ declaration.names,
          after.context.innermost.get? name = before.context.innermost.get? name) →
        condition before declaration →
        condition after declaration)
    (progress : Progress first.ids before after)
    (retypes : before.context.Retypes first.names after.context) :
    Standing base condition after rest := by
  obtain ⟨nodup, different, apart, declared, holds⟩ := standing
  simp only [Declaration.idsOfAll, List.forall_mem_cons] at *
  refine ⟨by grind, by grind, progress.apart apart, fun declaration member =>
    progress.declared ▸ declared.2 declaration member, fun declaration member => ?_⟩
  refine stays declaration member ?_ ?_ (holds.2 declaration member)
  · have : declaration.id ∈ Declaration.idsOfAll rest := by
      rw [Declaration.idsOfAll_eq]
      exact List.mem_flatMap_of_mem member declaration.id_mem_ids
    grind
  · intro name isName
    exact retypes.others name (by grind)

end Standing

/-- Only the types of the declared names may differ, and each declaration has its own. -/
structure TypesDeclared
    (before : CheckState)
    (declarations : List Declaration)
    (after : CheckState) : Prop where
  retypes : before.context.Retypes (declarations.flatMap Declaration.names) after.context
  declared : ∀ declaration ∈ declarations, Declared after declaration

theorem advances_declareTypes {declarations : List Declaration} (base : Nat)
    (clean : CleanDeclarations allowed declarations) :
    Advances classes (Declaration.idsOfAll declarations) (declareTypes declarations)
      fun state _ after =>
        Standing base Awaiting state declarations → TypesDeclared state declarations after := by
  induction declarations with
  | nil => exact .pure fun _ _ => ⟨.refl _, by simp⟩
  | cons first rest ih =>
    simp only [List.forall_mem_cons] at clean
    -- Once the first declaration has its type, it keeps it, and the others still wait.
    have rests : Advances classes (Declaration.idsOfAll rest) (declareTypes rest)
        fun middle _ after =>
          ∀ state : CheckState,
            Progress first.ids state middle →
            state.context.Retypes first.names middle.context →
            Declared middle first →
            Standing base Awaiting state (first :: rest) →
            TypesDeclared state (first :: rest) after := by
      refine (ih clean.2).imp ?_
      intro middle _ after progressRest found state progress retypes isFirst standing
      obtain ⟨retypesRest, declared⟩ := found (standing.others (fun _ _ fresh sameName awaiting =>
        awaiting.mono progress standing.apart fresh sameName) progress retypes)
      refine ⟨(retypes.mono (by simp)).trans (retypesRest.mono (by simp)),
        List.forall_mem_cons.mpr ⟨?_, declared⟩⟩
      exact isFirst.mono progressRest (progress.apart standing.apart) standing.first_not_mem
        fun name isName => retypesRest.others name (standing.names_not_mem isName)
    cases first with
    | stray id => exact absurd clean.1 (by simp [Declaration.Clean])
    | classType id name parameters members =>
      refine .within (.bind (advances_declareClass clean.1) fun _ => rests.imp ?_)
        (by grind)
      intro middle _ after _ found state progress _ isFilled standing
      obtain ⟨_, ⟨selfType, nameType, rfl, shape, isClass, isObject⟩, bound⟩ :=
        standing.holds _ List.mem_cons_self
      obtain ⟨sameContext, object, filled, entries⟩ := isFilled selfType isClass isObject
      refine found state progress (sameContext ▸ .refl _) ⟨nameType, selfType, object, ?_,
        Registry.shape?_of_longer progress.shapes shape, progress.classes ▸ isClass, filled,
        entries⟩ standing
      rw [sameContext]
      exact bound
    | function id name parameters result body =>
      refine .within (.bind (yields_signature clean.1.2.1).advances fun type =>
        .bind advances_setTopType fun _ => rests.imp ?_)
        (by grind)
      rintro middle _ after _ found resolved progressSet _ isSet state progress _
        ⟨step, sameContext, isSigned⟩ standing
      obtain ⟨types, resultType, denotes, shape⟩ := isSigned _ (.refl _)
      obtain ⟨_, rfl, bound⟩ := standing.holds _ List.mem_cons_self
      obtain ⟨_, retypes, typed⟩ := isSet _ (step.declared ▸ standing.declared _ List.mem_cons_self)
        (sameContext ▸ bound)
      refine found state ((progress.mono (by simp [Declaration.ids])).trans
        (progressSet.mono (by simp))) ?_ ⟨type, types, resultType, typed,
        denotes.mono progressSet.denotations,
        Registry.shape?_of_longer progressSet.shapes shape⟩ standing
      rw [sameContext]
      exact retypes
    | value id mutable name written initial =>
      cases written with
      | none =>
        refine (rests.imp ?_).within (by grind)
        intro state _ after _ found standing
        obtain ⟨_, rfl, bound⟩ := standing.holds _ List.mem_cons_self
        exact found state (.refl _) (.refl _) ⟨none, bound, .none⟩ standing
      | some written =>
        refine .within (.bind (yields_resolve written (clean.1.2.1 written rfl)).advances
          fun type => .bind advances_setTopType fun _ => rests.imp ?_)
          (by grind)
        rintro middle _ after _ found resolved progressSet _ isSet state progress _
          ⟨step, sameContext, denotes⟩ standing
        obtain ⟨_, rfl, bound⟩ := standing.holds _ List.mem_cons_self
        have declared := step.declared ▸ standing.declared _ List.mem_cons_self
        obtain ⟨_, retypes, typed⟩ := isSet _ declared (sameContext ▸ bound)
        refine found state ((progress.mono (by simp [Declaration.ids])).trans
          (progressSet.mono (by simp))) ?_ ⟨some type, typed,
          .some ((denotes _ (.refl _)).mono progressSet.denotations)⟩ standing
        rw [sameContext]
        exact retypes

end Check

end Toolshed
