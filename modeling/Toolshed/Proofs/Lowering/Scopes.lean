import Toolshed.Proofs.Script.Name
import Toolshed.Proofs.Syntax.Occurrence
import Toolshed.Proofs.Typing.Inversion

namespace Toolshed

/-!
# Scopes of checks, of modules and of scripts

A check keeps the names that are bound so far in the scopes around a place. A
script has the same scopes, but binds all names of a scope at every place of it.
-/

variable {name : String} {names : List String} {outer : List (List String)} {scopes : List Visible}
variable {visible : List Visible} {fixed : List String} {binding : Binding}

section Innermost

variable {α : Type} {find : α → Option Nat} {scope : α} {rest : List α} {binder : Nat × Nat}

theorem innermost?_cons_of_here {place : Nat} (here : find scope = some place) :
    innermost? find (scope :: rest) = some (0, place) := by
  rw [innermost?, here]

theorem innermost?_cons_of_some (absent : find scope = none)
    (found : innermost? find rest = some binder) :
    innermost? find (scope :: rest) = some (binder.1 + 1, binder.2) := by
  rw [innermost?, absent, found]
  rfl

theorem innermost?_cons_of_none (absent : find scope = none)
    (notFound : innermost? find rest = none) : innermost? find (scope :: rest) = none := by
  rw [innermost?, absent, notFound]
  rfl

theorem innermost?_eq_none_iff :
    innermost? find rest = none ↔ ∀ scope ∈ rest, find scope = none := by
  induction rest with
  | nil => simp [innermost?]
  | cons first rest ih =>
    rw [innermost?]
    cases here : find first with
    | some place => simp [here]
    | none => simp [here, ih]

end Innermost

structure Scope.Shows (scope : Scope) (visible : Visible) : Prop where
  names : ∀ name, scope.has name = true ↔ name ∈ visible.names
  own :
    ∀ name binding path,
      scope.get? name = some binding →
      binding.origin ≠ .builtin path

/--
A scope binds names of the host, each to a path that starts with a name of the
host or with itself.
-/
def Scope.OfHost (scope : Scope) : Prop :=
  ∀ name binding,
    scope.get? name = some binding →
    ∃ path,
      binding.origin = .builtin path ∧
        (Script.headName path ∈ Script.hostNames ∨ Script.headName path = name)

inductive Scope.Around : List Scope → List Visible → Prop where
  | host {scope : Scope} : scope.OfHost → Scope.Around [scope] []
  | branch {scopes : List Scope} {rest : List Visible} :
      Scope.Around scopes rest →
      Scope.Around scopes (⟨[], []⟩ :: rest)
  | inside {scope : Scope} {visible : Visible} {scopes : List Scope} {rest : List Visible} :
      scope.Shows visible →
      Scope.Around scopes rest →
      Scope.Around (scope :: scopes) (visible :: rest)

/-- A check sees the names around a place in a module. -/
def Context.Sees (context : Context) (scopes : List Visible) : Prop :=
  Scope.Around context.scopes scopes

def Scope.HostedBy (fixed : List String) (scopes : List Scope) : Prop :=
  ∃ host,
    scopes.getLast? = some host ∧
      ∀ name binding path,
        host.get? name = some binding →
        binding.origin = .builtin path →
        Script.headName path ∈ fixed

structure Context.Inside
    (fixed : List String)
    (context : Context)
    (names : List String)
    (scopes : List Visible) : Prop where
  innermost : ∀ later, context.innermost.Shows ⟨names, later⟩
  outer : Scope.Around context.outer scopes
  hosted : Scope.HostedBy fixed context.outer

theorem Scope.HostedBy.cons {scopes : List Scope} (hosted : Scope.HostedBy fixed scopes)
    (scope : Scope) : Scope.HostedBy fixed (scope :: scopes) := by
  obtain ⟨host, isHost, start⟩ := hosted
  exact ⟨host, by simp [List.getLast?_cons, isHost], start⟩

theorem Scope.HostedBy.mono {fixed larger : List String} {scopes : List Scope}
    (hosted : Scope.HostedBy fixed scopes) (within : fixed ⊆ larger) :
    Scope.HostedBy larger scopes := by
  obtain ⟨host, isHost, start⟩ := hosted
  exact ⟨host, isHost, fun name binding path found isPath =>
    within (start name binding path found isPath)⟩

theorem Scope.Around.ne_nil {scopes : List Scope} (around : Scope.Around scopes visible) :
    scopes ≠ [] := by
  induction around with
  | branch _ ih => exact ih
  | host | inside => simp

theorem Scope.Around.headName_mem {scopes : List Scope} {name path : String}
    (around : Scope.Around scopes visible) (hosted : Scope.HostedBy fixed scopes)
    (found : scopes.findSome? (fun scope => scope.get? name) = some binding)
    (isHost : binding.origin = .builtin path) : Script.headName path ∈ fixed := by
  induction around with
  | @host scope _ =>
    obtain ⟨_, isLast, start⟩ := hosted
    obtain rfl := Option.some.inj isLast
    rw [List.findSome?_singleton] at found
    exact start name binding path found isHost
  | branch _ ih => exact ih hosted found
  | @inside scope _ scopes _ shows around ih =>
    obtain ⟨host, isLast, start⟩ := hosted
    rw [List.findSome?_cons] at found
    cases here : scope.get? name with
    | some own =>
      rw [here] at found
      obtain rfl := Option.some.inj found
      exact (shows.own name own path here isHost).elim
    | none =>
      rw [here] at found
      obtain ⟨next, rest, rfl⟩ := List.exists_cons_of_ne_nil around.ne_nil
      exact ih ⟨host, List.getLast?_cons_cons ▸ isLast, start⟩ found

theorem Statement.functionNames_of_not_isFunction {statement : Statement}
    (notFunction : statement.isFunction = false) : statement.functionNames = [] := by
  unfold Statement.functionNames
  split
  · simp [Statement.isFunction] at notFunction
  · rfl

namespace Context.Inside

variable {fixed : List String} {context : Context} {scopes : List Visible} {names : List String}
variable {final : CheckState} {parameters : List Parameter} {types : List TypeId}
variable {entered next : Context} {statements : List Statement} {name : String} {binding : Binding}

theorem sees (inside : context.Inside fixed names scopes) (later : List String) :
    context.Sees (⟨names, later⟩ :: scopes) :=
  .inside (inside.innermost later) inside.outer

theorem push (sees : context.Sees scopes) (hosted : Scope.HostedBy fixed context.scopes)
    (kind : ScopeKind) : (context.push kind).Inside fixed [] scopes :=
  ⟨fun _ => ⟨by simp [Context.push, Scope.has, Scope.get?], by simp [Context.push, Scope.get?]⟩,
    sees, hosted⟩

theorem define (inside : context.Inside fixed names scopes) (name : String) (binding : Binding)
    (own : ∀ path, binding.origin ≠ .builtin path) :
    (context.define name binding).2.Inside fixed (names ++ [name]) scopes := by
  have shows := inside.innermost []
  unfold Context.define
  split
  · next bound =>
      have isBound : name ∈ names := (shows.names name).mp bound
      refine ⟨fun _ => ⟨fun other => ?_, shows.own⟩, inside.outer, inside.hosted⟩
      rw [shows.names other, List.mem_append, List.mem_singleton]
      exact ⟨.inl, fun either => either.elim id fun same => same ▸ isBound⟩
  · refine ⟨fun _ => ⟨fun other => ?_, fun other found path isFound => ?_⟩, inside.outer,
      inside.hosted⟩
    · rw [Scope.has_iff, List.map_append, List.mem_append, ← Scope.has_iff, shows.names other]
      simp
    · simp only [Scope.get?, List.lookup_append] at isFound
      cases old : context.innermost.bindings.lookup other with
      | some before =>
        rw [old] at isFound
        obtain rfl := Option.some.inj isFound
        exact shows.own other before path old
      | none =>
        rw [old, List.lookup_cons] at isFound
        split at isFound
        · obtain rfl := Option.some.inj isFound
          exact own path
        · simp at isFound

theorem bindParameters (inside : context.Inside fixed names scopes)
    (denote : List.Forall₂ (Parameter.Denotes final) parameters types) :
    (context.bindParameters parameters types).Inside fixed
      (names ++ parameters.filterMap Parameter.name?) scopes := by
  induction denote generalizing context names with
  | nil => simpa [Context.bindParameters] using inside
  | @cons first type rest types denotes _ ih =>
    cases first with
    | named id name written =>
      have next := ih
        (inside.define name ⟨some type, .declared .parameter, none⟩ (by simp))
      simpa [Context.bindParameters, Parameter.name?] using next
    | stray id => exact denotes.elim

theorem enter (sees : context.Sees scopes) (hosted : Scope.HostedBy fixed context.scopes)
    (denote : List.Forall₂ (Parameter.Denotes final) parameters types) (result : TypeId) :
    (context.enter parameters types result).Inside fixed (parameters.filterMap Parameter.name?)
      scopes :=
  (push sees hosted (.function result)).bindParameters denote

theorem declaresFunctions (inside : context.Inside fixed names scopes)
    (declares : DeclaresFunctions final context statements entered) :
    entered.Inside fixed (names ++ statements.flatMap Statement.functionNames) scopes := by
  induction declares generalizing names with
  | nil => simpa using inside
  | @function _ _ _ id name _ _ _ _ _ _ type _ _ defined _ ih =>
    have next := inside.define name ⟨some type, .declared .function, some id⟩ (by simp)
    rw [defined] at next
    simpa [Statement.functionNames] using ih next
  | @other _ _ first _ notFunction _ ih =>
    simpa [Statement.functionNames_of_not_isFunction notFunction] using
      ih inside

theorem accepted {final : CheckState} {next : Context} {statement : Statement}
    (inside : context.Inside fixed names scopes)
    (accepted : statement.Accepted final context next) :
    next.Inside fixed (names ++ statement.valueNames) scopes := by
  cases accepted with
  | @value _ _ id mutable name _ _ _ type _ _ defined =>
    have bound := inside.define name ⟨some type, .declared (.ofMutable mutable), some id⟩
      (by simp)
    rw [defined] at bound
    exact bound
  | function | expression | returnNothing | returnValue | conditional | loop | assignment =>
    simpa [Statement.valueNames] using inside

variable (inside : context.Inside fixed names scopes)
include inside

theorem notBound
    (defined : context.define name binding = (true, next)) : name ∉ names := by
  have absent : name ∉ context.names := (define_eq_true_iff.mp defined).1
  rwa [Context.names, ← Scope.has_iff, (inside.innermost []).names] at absent

theorem nodup_append (distinct : names.Nodup)
    (defined : context.define name binding = (true, next)) : (names ++ [name]).Nodup :=
  List.nodup_append.mpr ⟨distinct, List.nodup_singleton name, fun _ member _ isName same =>
    inside.notBound defined (List.mem_singleton.mp isName ▸ same ▸ member)⟩

theorem nodup_functions (distinct : names.Nodup)
    (declares : DeclaresFunctions final context statements entered) :
    (names ++ statements.flatMap Statement.functionNames).Nodup := by
  induction declares generalizing names with
  | nil => simpa using distinct
  | @function _ _ _ id name _ _ _ _ _ _ type _ _ defined _ ih =>
    have next := inside.define name ⟨some type, .declared .function, some id⟩ (by simp)
    rw [defined] at next
    simpa [Statement.functionNames] using
      ih next (inside.nodup_append distinct defined)
  | @other _ _ first _ notFunction _ ih =>
    simpa [Statement.functionNames_of_not_isFunction notFunction] using
      ih inside distinct

theorem nodup_values {after : Context}
    (distinct : names.Nodup) (allAccepted : Statement.AllAccepted final context statements after) :
    (names ++ statements.flatMap Statement.valueNames).Nodup := by
  induction statements generalizing context names with
  | nil => simpa using distinct
  | cons first rest ih =>
    obtain ⟨next, acceptedFirst, acceptedRest⟩ := allAccepted.cons_inv
    have distinctNext : (names ++ first.valueNames).Nodup := by
      cases acceptedFirst with
      | value _ _ defined => exact inside.nodup_append distinct defined
      | function | expression | returnNothing | returnValue | conditional | loop | assignment =>
        simpa [Statement.valueNames] using distinct
    simpa using ih (inside.accepted acceptedFirst) distinctNext acceptedRest

end Context.Inside

namespace Context.Sees

variable {context whole : Context} {scopes : List Visible}

theorem hostedBy_refined {fixed : List String} (hosted : Scope.HostedBy fixed whole.scopes)
    (refines : context.Refines whole) : Scope.HostedBy fixed context.scopes := by
  have around : List.Forall₂ Scope.Refines context.scopes whole.scopes :=
    .cons refines.innermost refines.outer
  generalize context.scopes = before at around ⊢
  generalize whole.scopes = after at hosted around
  induction around with
  | nil => exact hosted
  | @cons first refined rest others refinesFirst refinesRest ih =>
    obtain ⟨host, isLast, start⟩ := hosted
    cases refinesRest with
    | nil =>
      obtain rfl := Option.some.inj isLast
      refine ⟨first, rfl, fun name binding path found isHost => ?_⟩
      obtain ⟨other, isFound, toRefined⟩ := refinesFirst.bindings name binding found
      exact start name other path isFound (toRefined.origin ▸ isHost)
    | cons =>
      exact (ih ⟨host, by simpa using isLast, start⟩).cons
        first

theorem refined (sees : whole.Sees scopes) (refines : context.Refines whole) :
    context.Sees scopes := by
  have around : List.Forall₂ Scope.Refines context.scopes whole.scopes :=
    .cons refines.innermost refines.outer
  unfold Context.Sees at sees ⊢
  generalize context.scopes = before at around ⊢
  generalize whole.scopes = after at sees around
  induction sees generalizing before with
  | host ofHost =>
    obtain ⟨scope, _, refinesScope, none, rfl⟩ := List.forall₂_cons_right_iff.mp around
    cases none
    refine .host fun name binding found => ?_
    obtain ⟨refined, isFound, toRefined⟩ := refinesScope.bindings name binding found
    obtain ⟨path, isHost, start⟩ := ofHost name refined isFound
    exact ⟨path, toRefined.origin ▸ isHost, start⟩
  | branch _ ih => exact .branch (ih _ around)
  | inside shows _ ih =>
    obtain ⟨scope, _, refinesScope, rest, rfl⟩ := List.forall₂_cons_right_iff.mp around
    refine .inside ⟨fun name => ?_, fun name binding path found => ?_⟩
      (ih _ rest)
    · rw [← shows.names name, Scope.has_iff, Scope.has_iff, refinesScope.names]
    · obtain ⟨refined, isFound, toRefined⟩ := refinesScope.bindings name binding found
      exact toRefined.origin ▸ shows.own name refined path isFound

theorem lookup {binding : Binding} (sees : context.Sees scopes)
    (found : context.lookup name = some binding) :
    (∃ binder,
      innermost? (fun scope => scope.names.idxOf? name) scopes = some binder ∧
        ∀ path, binding.origin ≠ .builtin path) ∨
    (innermost? (fun scope => scope.names.idxOf? name) scopes = none ∧
      ∃ path,
        binding.origin = .builtin path ∧
          (Script.headName path ∈ Script.hostNames ∨ Script.headName path = name)) := by
  unfold Context.lookup at found
  unfold Context.Sees at sees
  generalize context.scopes = around at sees found
  induction sees with
  | host ofHost =>
    rw [List.findSome?_singleton] at found
    exact .inr ⟨rfl, ofHost name binding found⟩
  | branch _ ih =>
    rcases ih found with ⟨binder, isFound, own⟩ | ⟨notFound, ofHost⟩
    · exact .inl ⟨_, innermost?_cons_of_some rfl isFound, own⟩
    · exact .inr ⟨innermost?_cons_of_none rfl notFound, ofHost⟩
  | @inside scope visible _ _ shows _ ih =>
    rw [List.findSome?_cons] at found
    have isVisible : name ∈ visible.names ↔ (scope.get? name).isSome = true :=
      (shows.names name).symm
    cases here : scope.get? name with
    | some bound =>
      rw [here] at found isVisible
      obtain rfl := Option.some.inj found
      obtain ⟨place, isPlace⟩ := Option.isSome_iff_exists.mp
        (List.isSome_idxOf?.mpr (isVisible.mpr rfl))
      exact .inl ⟨_, innermost?_cons_of_here isPlace, fun path => shows.own name bound path here⟩
    | none =>
      rw [here] at found isVisible
      have absent : visible.names.idxOf? name = none :=
        List.idxOf?_eq_none_iff.mpr fun member => by simpa using isVisible.mp member
      rcases ih found with ⟨binder, isFound, own⟩ | ⟨notFound, ofHost⟩
      · exact .inl ⟨_, innermost?_cons_of_some absent isFound, own⟩
      · exact .inr ⟨innermost?_cons_of_none absent notFound, ofHost⟩

end Context.Sees

theorem Binding.own_of_isMutable (mutable : binding.isMutable = true) (path : String) :
    binding.origin ≠ .builtin path := by
  obtain ⟨type, origin, node⟩ := binding
  rintro rfl
  simp [Binding.isMutable] at mutable

def Visible.Mirrored (names : List String) (visible : Visible) : Prop :=
  names = (visible.names ++ visible.later).map Script.nameOf

inductive Mirrors : List (List String) → List Visible → Prop where
  | outside {padding : List (List String)} : (∀ names ∈ padding, names = []) → Mirrors padding []
  | inside
      {names : List String}
      {visible : Visible}
      {outer : List (List String)}
      {scopes : List Visible} :
      visible.Mirrored names →
      Mirrors outer scopes →
      Mirrors (names :: outer) (visible :: scopes)

def DeclarableScopes (scopes : List Visible) : Prop :=
  ∀ scope ∈ scopes, ∀ name ∈ scope.names ++ scope.later, DeclarableName name

def DistinctScopes (scopes : List Visible) : Prop :=
  ∀ scope ∈ scopes, (scope.names ++ scope.later).Nodup

section Pass

variable {outer : List (List String)} {scopes : List Visible} {bound first rest : List String}

theorem Mirrors.pass (mirrors : Mirrors outer (⟨bound, first ++ rest⟩ :: scopes)) :
    Mirrors outer (⟨bound ++ first, rest⟩ :: scopes) := by
  cases mirrors with
  | inside mirrored around =>
    exact .inside (by simpa [Visible.Mirrored] using mirrored) around

theorem DeclarableScopes.pass (plain : DeclarableScopes (⟨bound, first ++ rest⟩ :: scopes)) :
    DeclarableScopes (⟨bound ++ first, rest⟩ :: scopes) := by
  obtain ⟨here, around⟩ := List.forall_mem_cons.mp plain
  exact List.forall_mem_cons.mpr ⟨by simpa using here, around⟩

theorem DistinctScopes.pass (distinct : DistinctScopes (⟨bound, first ++ rest⟩ :: scopes)) :
    DistinctScopes (⟨bound ++ first, rest⟩ :: scopes) := by
  obtain ⟨here, around⟩ := List.forall_mem_cons.mp distinct
  exact List.forall_mem_cons.mpr ⟨by simpa using here, around⟩

end Pass

theorem Script.lastPlace?_eq_none_iff : Script.lastPlace? name names = none ↔ name ∉ names := by
  induction names with
  | nil => simp [Script.lastPlace?]
  | cons first rest ih =>
    unfold Script.lastPlace?
    cases later : Script.lastPlace? name rest with
    | some place =>
      rw [later] at ih
      simpa using fun _ => ih
    | none =>
      grind

theorem Script.lastPlace?_nameOf (plainNames : ∀ bound ∈ names, PlainName bound)
    (plain : PlainName name) :
    Script.lastPlace? (Script.nameOf name) (names.map Script.nameOf) =
      Script.lastPlace? name names := by
  induction names with
  | nil => rfl
  | cons first rest ih =>
    obtain ⟨plainFirst, plainRest⟩ := List.forall_mem_cons.mp plainNames
    have same : Script.nameOf first = Script.nameOf name ↔ first = name :=
      ⟨Script.nameOf_injective plainFirst plain, fun same => same ▸ rfl⟩
    rw [List.map_cons, Script.lastPlace?, Script.lastPlace?, ih plainRest]
    simp only [same]

theorem Script.lastPlace?_eq_idxOf? (distinct : names.Nodup) :
    Script.lastPlace? name names = names.idxOf? name := by
  induction names with
  | nil => rfl
  | cons first rest ih =>
    obtain ⟨absent, distinctRest⟩ := List.nodup_cons.mp distinct
    rw [Script.lastPlace?, ih distinctRest, List.idxOf?_cons]
    by_cases same : first = name
    · subst same
      simp [List.idxOf?_eq_none_iff.mpr absent]
    · cases rest.idxOf? name <;> simp [same]

theorem Mirrors.innermost?_eq (mirrors : Mirrors outer scopes)
    (plainScopes : DeclarableScopes scopes) (plain : PlainName name) :
    innermost? (Script.lastPlace? (Script.nameOf name)) outer =
      innermost? (fun scope => Script.lastPlace? name (scope.names ++ scope.later)) scopes := by
  induction mirrors with
  | outside empty =>
    refine innermost?_eq_none_iff.mpr fun names member => ?_
    rw [empty names member]
    rfl
  | @inside names visible _ _ mirrored _ ih =>
    obtain ⟨plainHere, plainRest⟩ := List.forall_mem_cons.mp plainScopes
    rw [innermost?, innermost?, mirrored,
      Script.lastPlace?_nameOf (fun bound member => (plainHere bound member).1) plain,
      ih plainRest]

theorem innermost?_lastPlace?_eq_iff {binder : Nat × Nat} (distinct : DistinctScopes scopes)
    (found : innermost? (fun scope => scope.names.idxOf? name) scopes = some binder) :
    innermost? (fun scope => Script.lastPlace? name (scope.names ++ scope.later)) scopes =
        some binder ↔
      ∀ scope ∈ scopes.take binder.1, name ∉ scope.later := by
  induction scopes generalizing binder with
  | nil => simp [innermost?] at found
  | cons first rest ih =>
    obtain ⟨distinctHere, distinctRest⟩ := List.forall_mem_cons.mp distinct
    rw [innermost?] at found
    have places : (first.names ++ first.later).idxOf? name =
        (first.names.idxOf? name).or ((first.later.idxOf? name).map (· + first.names.length)) :=
      List.findIdx?_append
    rw [innermost?, Script.lastPlace?_eq_idxOf? distinctHere, places]
    cases here : first.names.idxOf? name with
    | some place =>
      simp only [here] at found
      obtain rfl := Option.some.inj found
      simp
    | none =>
      simp only [here] at found
      obtain ⟨inner, isInner, rfl⟩ := Option.map_eq_some_iff.mp found
      have inside := ih distinctRest isInner
      by_cases isLater : name ∈ first.later
      · obtain ⟨place, isPlace⟩ := Option.isSome_iff_exists.mp (List.isSome_idxOf?.mpr isLater)
        simp [isPlace, isLater]
      · have absent := List.idxOf?_eq_none_iff.mpr isLater
        simpa [absent, isLater] using inside

theorem Mirrors.innermost?_eq_none_iff (mirrors : Mirrors outer scopes) :
    innermost? (Script.lastPlace? name) outer = none ↔
      ∀ scope ∈ scopes, ∀ bound ∈ scope.names ++ scope.later, Script.nameOf bound ≠ name := by
  rw [Toolshed.innermost?_eq_none_iff]
  induction mirrors with
  | outside empty =>
    simp only [List.not_mem_nil, false_implies, implies_true, iff_true]
    intro names member
    rw [empty names member]
    rfl
  | @inside names visible _ _ mirrored _ ih =>
    rw [List.forall_mem_cons, List.forall_mem_cons, ih,
      Script.lastPlace?_eq_none_iff, mirrored, List.mem_map]
    simp only [not_exists, not_and]

end Toolshed
