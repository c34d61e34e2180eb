import Toolshed.Proofs.Script.Evaluation
import Toolshed.Script.Simplify

namespace Toolshed

/-!
# A script beside a simpler one

A script and its simpler form run side by side: their memories are the same,
except that functions in one of them have simpler bodies. The steps that keep
this look into no function; calls are left to the machine.
-/

namespace Script

mutual

def Expression.Tidy : Expression → Prop
  | .number _ | .string _ | .boolean _ | .undefined | .identifier _ => True
  | .binary _ left right => left.Tidy ∧ right.Tidy
  | .unary _ operand => operand.Tidy
  | .call callee arguments => callee.Tidy ∧ TidyExpressions arguments
  | .member object _ => object.Tidy
  | .function function => function.Tidy
  | .object properties => TidyProperties properties
  | .assignment _ value => value.Tidy

def TidyExpressions : List Expression → Prop
  | [] => True
  | first :: rest => first.Tidy ∧ TidyExpressions rest

def Function.Tidy : Function → Prop
  | .make _ _ body => TidyBody true body

def Property.Tidy : Property → Prop
  | .value _ value => value.Tidy
  | .getter _ value => value.Tidy

def TidyProperties : List Property → Prop
  | [] => True
  | first :: rest => first.Tidy ∧ TidyProperties rest

/--
Whether a statement declares no hoisted variable in a block of its own, nor at all
unless it stands directly in the body of a function or at the top level.
-/
def Statement.Tidy (direct : Bool) : Statement → Prop
  | .variable kind _ initial => (kind = .hoisted → direct = true) ∧ initial.Tidy
  | .function function => function.Tidy
  | .returnNothing => True
  | .returnValue value => value.Tidy
  | .conditional condition thenBody none => condition.Tidy ∧ TidyBody false thenBody
  | .conditional condition thenBody (some elseBody) =>
    condition.Tidy ∧ TidyBody false thenBody ∧ TidyBody false elseBody
  | .loop condition body => condition.Tidy ∧ TidyBody false body
  | .block body => TidyBody false body
  | .expression expression => expression.Tidy

/-- Whether hoisted variables are declared directly in the body of a function only. -/
def TidyBody (direct : Bool) : List Statement → Prop
  | [] => True
  | first :: rest => first.Tidy direct ∧ TidyBody direct rest

end

def Slot.simplify : Slot → Slot
  | .value result => .value result
  | .getter function scope => .getter function.simplify scope

def simplifySlots (slots : List (String × Slot)) : List (String × Slot) :=
  slots.map fun (key, slot) => (key, slot.simplify)

def Entity.simplify (entity : Entity) : Entity where
  code := entity.code.map fun (function, scope) => (function.simplify, scope)
  slots := simplifySlots entity.slots

def Memory.simplify (memory : Memory) : Memory :=
  { memory with objects := memory.objects.map Entity.simplify }

def Slot.Tidy : Slot → Prop
  | .value _ => True
  | .getter function _ => function.Tidy

def TidySlots (slots : List (String × Slot)) : Prop :=
  ∀ key slot, (key, slot) ∈ slots → slot.Tidy

structure Entity.Tidy (entity : Entity) : Prop where
  code : ∀ function scope, entity.code = some (function, scope) → function.Tidy
  slots : TidySlots entity.slots

def Memory.Tidy (memory : Memory) : Prop :=
  ∀ entity ∈ memory.objects, entity.Tidy

theorem lookup_simplifySlots (key : String) (slots : List (String × Slot)) :
    (simplifySlots slots).lookup key = (slots.lookup key).map Slot.simplify := by
  induction slots with
  | nil => rfl
  | cons first rest ih =>
    obtain ⟨other, slot⟩ := first
    rw [simplifySlots, List.map_cons, List.lookup_cons, List.lookup_cons]
    cases key == other with
    | true => rfl
    | false => exact ih

theorem withSlot_simplify (key : String) (slot : Slot) (slots : List (String × Slot)) :
    withSlot key slot.simplify (simplifySlots slots) = simplifySlots (withSlot key slot slots) := by
  induction slots with
  | nil => rfl
  | cons first rest ih =>
    obtain ⟨other, old⟩ := first
    simp only [simplifySlots, List.map_cons, withSlot] at ih ⊢
    by_cases same : other = key
    · simp [same]
    · simp [same, ih]

variable {slots : List (String × Slot)}

theorem TidySlots.withSlot {key : String} {slot : Slot} (tidy : TidySlots slots) (new : slot.Tidy) :
    TidySlots (withSlot key slot slots) := by
  induction slots with
  | nil =>
    intro name found member
    cases List.mem_singleton.mp member
    exact new
  | cons first rest ih =>
    obtain ⟨other, old⟩ := first
    have others : TidySlots rest := fun name found member =>
      tidy name found (List.mem_cons_of_mem _ member)
    intro name found member
    rw [Script.withSlot] at member
    by_cases same : other = key
    · rw [if_pos same] at member
      rcases List.mem_cons.mp member with equal | member
      · cases equal
        exact new
      · exact others name found member
    · rw [if_neg same] at member
      rcases List.mem_cons.mp member with equal | member
      · cases equal
        exact tidy other old List.mem_cons_self
      · exact ih others name found member

theorem TidySlots.of_lookup {key : String} {slot : Slot} (tidy : TidySlots slots)
    (found : slots.lookup key = some slot) : slot.Tidy := by
  obtain ⟨before, after, split, -⟩ := List.lookup_eq_some_iff.mp found
  exact tidy key slot (split ▸ by simp)

theorem Entity.set_simplify (key : String) (value : Value) (entity : Entity) :
    entity.simplify.set key value = (entity.set key value).simplify := by
  have found := lookup_simplifySlots key entity.slots
  have replaced := withSlot_simplify key (.value value) entity.slots
  simp only [Entity.set, Entity.simplify, found]
  rcases entity.slots.lookup key with _ | _ | _
  · exact congrArg (Entity.mk _) replaced
  · exact congrArg (Entity.mk _) replaced
  · rfl

theorem Entity.Tidy.set {entity : Entity} (tidy : entity.Tidy) (key : String) (value : Value) :
    (entity.set key value).Tidy := by
  rw [Entity.set]
  split
  · exact tidy
  · exact ⟨tidy.code, tidy.slots.withSlot trivial⟩

inductive Ending.Matches {α : Type} (related : α → α → Prop) : Ending α → Ending α → Prop
  | done {simpler original : α} :
      related simpler original → Matches related (.done simpler) (.done original)
  | thrown (error : Thrown) : Matches related (.thrown error) (.thrown error)
  | exhausted : Matches related .exhausted .exhausted

structure Agrees {α : Type} (related : α → α → Prop) (simpler original : Ending α × Memory) :
    Prop where
  ending : simpler.1.Matches related original.1
  memory : simpler.2 = original.2.simplify
  tidy : original.2.Tidy

/-- Whether an evaluation does, in a simpler memory, what another one does. -/
def Simulates {α : Type} (related : α → α → Prop) (simpler original : Evaluation α) : Prop :=
  ∀ memory : Memory, memory.Tidy → Agrees related (simpler memory.simplify) (original memory)

abbrev Same {α : Type} (simpler original : Evaluation α) : Prop :=
  Simulates Eq simpler original

namespace Evaluation

variable {α : Type}

theorem map_id (evaluation : Evaluation α) : id <$> evaluation = evaluation := by
  funext memory
  show goOn (pure ∘ id) (evaluation memory) = evaluation memory
  rcases evaluation memory with ⟨_ | _ | _, _⟩ <;> rfl

theorem bind_bind {β γ : Type} (first : Evaluation α) (second : α → Evaluation β)
    (third : β → Evaluation γ) :
    first >>= second >>= third = first >>= fun result => second result >>= third := by
  funext memory
  show goOn third (goOn second (first memory)) =
    goOn (fun result => second result >>= third) (first memory)
  rcases first memory with ⟨_ | _ | _, _⟩ <;> rfl

instance : LawfulMonad Evaluation :=
  LawfulMonad.mk' Evaluation map_id (fun _ _ => rfl) bind_bind

end Evaluation

namespace Simulates

variable {α β : Type}
variable {related : α → α → Prop} {simpler original : Evaluation α} {relatedNext : β → β → Prop}
variable {simplerNext originalNext : α → Evaluation β}

theorem pure {simpler original : α} (results : related simpler original) :
    Simulates related (Pure.pure simpler) (Pure.pure original) :=
  fun _ tidy => ⟨.done results, rfl, tidy⟩

theorem throw (related : α → α → Prop) (error : Thrown) :
    Simulates related (.throw error) (.throw error) :=
  fun _ tidy => ⟨.thrown error, rfl, tidy⟩

theorem exhaust (related : α → α → Prop) :
    Simulates related Evaluation.exhaust Evaluation.exhaust :=
  fun _ tidy => ⟨.exhausted, rfl, tidy⟩

theorem bind (first : Simulates related simpler original)
    (next : ∀ result result', related result result' →
      Simulates relatedNext (simplerNext result) (originalNext result')) :
    Simulates relatedNext (simpler >>= simplerNext) (original >>= originalNext) := by
  intro memory tidy
  show Agrees relatedNext
    (Evaluation.goOn simplerNext (simpler memory.simplify))
    (Evaluation.goOn originalNext (original memory))
  obtain ⟨ending, same, after⟩ := first memory tidy
  rcases simplerEnd : simpler memory.simplify with ⟨simplerEnding, simplerMemory⟩
  rcases originalEnd : original memory with ⟨originalEnding, originalMemory⟩
  rw [simplerEnd, originalEnd] at ending same
  rw [originalEnd] at after
  cases same
  cases ending with
  | done results => exact next _ _ results originalMemory after
  | thrown error => exact ⟨.thrown error, rfl, after⟩
  | exhausted => exact ⟨.exhausted, rfl, after⟩

theorem andThen (first : Same simpler original)
    (next : ∀ result, Simulates relatedNext (simplerNext result) (originalNext result)) :
    Simulates relatedNext (simpler >>= simplerNext) (original >>= originalNext) :=
  first.bind fun _ _ equal => equal ▸ next _

end Simulates

namespace Evaluation

theorem same_of_objects_kept {α : Type} {evaluation : Evaluation α}
    (simpler : ∀ memory : Memory,
      evaluation memory.simplify = ((evaluation memory).1, (evaluation memory).2.simplify))
    (kept : ∀ memory : Memory, (evaluation memory).2.objects = memory.objects) :
    Same evaluation evaluation := by
  intro memory tidy
  refine ⟨?_, congrArg Prod.snd (simpler memory), ?_⟩
  · rw [simpler memory]
    cases (evaluation memory).1 with
    | done result => exact .done rfl
    | thrown error => exact .thrown error
    | exhausted => exact .exhausted
  · intro entity member
    exact tidy entity (kept memory ▸ member)

theorem newCell_same (cell : Cell) : Same (newCell cell) (newCell cell) :=
  same_of_objects_kept (fun _ => rfl) fun _ => rfl

theorem initialise_same (address : Nat) (value : Value) :
    Same (initialise address value) (initialise address value) :=
  same_of_objects_kept (fun _ => rfl) fun _ => rfl

theorem note_same (event : Event) : Same (note event) (note event) :=
  same_of_objects_kept (fun _ => rfl) fun _ => rfl

theorem history_same : Same history history :=
  same_of_objects_kept (fun _ => rfl) fun _ => rfl

theorem readCell_same (name : String) (address : Nat) :
    Same (readCell name address) (readCell name address) := by
  apply same_of_objects_kept
  · intro memory
    simp only [readCell, Memory.simplify]
    split <;> rfl
  · intro memory
    simp only [readCell]
    split <;> rfl

theorem assignCell_same (name : String) (address : Nat) (value : Value) :
    Same (assignCell name address value) (assignCell name address value) := by
  apply same_of_objects_kept
  · intro memory
    simp only [assignCell, Memory.simplify]
    split <;> rfl
  · intro memory
    simp only [assignCell]
    split <;> rfl

theorem newObject_same {entity : Entity} (tidy : entity.Tidy) :
    Same (newObject entity.simplify) (newObject entity) := by
  intro memory before
  refine ⟨.done ?_, ?_, ?_⟩
  · simp [Memory.simplify]
  · simp [newObject, Memory.simplify]
  · intro other member
    rcases List.mem_append.mp member with member | member
    · exact before other member
    · exact List.mem_singleton.mp member ▸ tidy

def EntityMatches (simpler original : Option Entity) : Prop :=
  simpler = original.map Entity.simplify ∧ ∀ entity, original = some entity → entity.Tidy

theorem entity_simulates (address : Nat) :
    Simulates EntityMatches (entity address) (entity address) := by
  intro memory tidy
  refine ⟨.done ⟨?_, ?_⟩, rfl, tidy⟩
  · simp [Memory.simplify]
  · intro found present
    exact tidy found (List.mem_of_getElem? present)

theorem setSlot_same (address : Nat) (key : String) (value : Value) :
    Same (setSlot address key value) (setSlot address key value) := by
  intro memory tidy
  refine ⟨.done rfl, ?_, ?_⟩
  · simp only [setSlot, Memory.simplify, Memory.mk.injEq, true_and, and_true]
    apply List.ext_getElem?
    intro index
    simp only [List.getElem?_modify, List.getElem?_map]
    by_cases here : address = index
    · cases memory.objects[index]? with
      | none => simp
      | some found => simp [here, Entity.set_simplify]
    · simp [here]
  · intro found member
    obtain ⟨index, present⟩ := List.mem_iff_getElem?.mp member
    obtain ⟨old, before, rfl⟩ := Option.map_eq_some_iff.mp (List.getElem?_modify .. ▸ present)
    have oldTidy := tidy old (List.mem_of_getElem? before)
    by_cases here : address = index
    · rw [if_pos here]
      exact oldTidy.set key value
    · rw [if_neg here]
      exact oldTidy

theorem attempt_same {simpler original : Evaluation Value} (same : Same simpler original) :
    Same (attempt simpler) (attempt original) := by
  intro memory tidy
  obtain ⟨ending, after, afterTidy⟩ := same memory tidy
  simp only [attempt]
  rcases simplerEnd : simpler memory.simplify with ⟨simplerEnding, simplerMemory⟩
  rcases originalEnd : original memory with ⟨originalEnding, originalMemory⟩
  rw [simplerEnd, originalEnd] at ending after
  rw [originalEnd] at afterTidy
  cases after
  cases ending with
  | done results => exact ⟨.done (congrArg Attempt.value results), rfl, afterTidy⟩
  | thrown error => exact ⟨.done rfl, rfl, afterTidy⟩
  | exhausted => exact ⟨.exhausted, rfl, afterTidy⟩

end Evaluation

open Evaluation

def Machine.Respects (machine : Machine) : Prop :=
  ∀ function scope arguments, Function.Tidy function →
    Same (machine.invoke function.simplify scope arguments)
      (machine.invoke function scope arguments)

namespace Machine

variable {machine : Machine}

section

variable (respects : machine.Respects)
include respects

theorem callObject_same (address : Nat) (arguments : List Value) :
    Same (machine.callObject address arguments) (machine.callObject address arguments) := by
  apply (entity_simulates address).bind
  rintro _ found ⟨rfl, tidy⟩
  rcases found with _ | ⟨_ | ⟨function, scope⟩, slots⟩
  · exact .throw _ _
  · exact .throw _ _
  · exact respects function scope arguments ((tidy _ rfl).code _ _ rfl)

theorem ownMember_same (address : Nat) (key : String) :
    Same (machine.ownMember address key) (machine.ownMember address key) := by
  apply (entity_simulates address).bind
  rintro _ found ⟨rfl, tidy⟩
  rcases found with _ | entity
  · exact .pure rfl
  · simp only [Option.map_some, Option.bind_some, Entity.simplify, lookup_simplifySlots]
    rcases looked : entity.slots.lookup key with _ | value | ⟨function, scope⟩
    · exact .pure rfl
    · exact .pure rfl
    · apply (respects function scope [] ((tidy entity rfl).slots.of_lookup looked)).andThen
      exact fun _ => .pure rfl

theorem converse_same (count : Nat) :
    Same (machine.converse count) (machine.converse count) := by
  induction count with
  | zero => exact .exhaust _
  | succ count ih =>
    apply history_same.andThen
    intro events
    rcases machine.host.reply events with
      value | value | ⟨address, arguments⟩ | ⟨address, key⟩ | ⟨address, key, value⟩
    · exact .pure rfl
    · exact .throw _ _
    · apply (attempt_same (callObject_same respects address arguments)).andThen
      intro result
      exact (note_same _).andThen fun _ => ih
    · have read := ownMember_same respects address key
      apply (attempt_same (read.andThen fun _ => .pure rfl)).andThen
      intro result
      exact (note_same _).andThen fun _ => ih
    · exact (setSlot_same address key value).andThen fun _ => ih

theorem ask_same (question : Question) :
    Same (machine.ask question) (machine.ask question) :=
  (note_same _).andThen fun _ => converse_same respects machine.bound

theorem call_same (callee : Value) (arguments : List Value) :
    Same (machine.call callee arguments) (machine.call callee arguments) := by
  cases callee with
  | object address => exact callObject_same respects address arguments
  | foreign handle => exact ask_same respects _
  | _ => exact .throw _ _

theorem member_same (owner : Value) (key : String) :
    Same (machine.member owner key) (machine.member owner key) := by
  cases owner with
  | undefined => exact .throw _ _
  | null => exact .throw _ _
  | object address =>
    apply (ownMember_same respects address key).andThen
    intro found
    cases found with
    | none => exact ask_same respects _
    | some value => exact .pure rfl
  | _ => exact ask_same respects _

theorem setMember_same (owner : Value) (key : String)
    (value : Value) :
    Same (machine.setMember owner key value) (machine.setMember owner key value) := by
  cases owner with
  | undefined => exact .throw _ _
  | null => exact .throw _ _
  | object address => exact setSlot_same address key value
  | _ => exact (ask_same respects _).andThen fun _ => .pure rfl

theorem primitive_same (value : Value) :
    Same (machine.primitive value) (machine.primitive value) := by
  rw [primitive]
  split
  · apply (ask_same respects (.convert value)).andThen
    intro converted
    split
    · exact .throw _ _
    · exact .pure rfl
  · exact .pure rfl

end

theorem global_same (machine : Machine) (name : String) :
    Same (machine.global name) (machine.global name) := by
  apply history_same.andThen
  intro events
  cases machine.host.global events name with
  | none => exact .throw _ _
  | some value => exact .pure rfl

theorem lookup_same (machine : Machine) (scope : Scope) (name : String) :
    Same (machine.lookup scope name) (machine.lookup scope name) := by
  rw [lookup]
  cases scope.lookup name with
  | none => exact global_same machine name
  | some address => exact readCell_same name address

variable (respects : machine.Respects)
include respects

theorem assign_same (scope : Scope) (name : String) (value : Value) :
    Same (machine.assign scope name value) (machine.assign scope name value) := by
  rw [assign]
  cases scope.lookup name with
  | none =>
    apply (global_same machine name).andThen
    exact fun _ => (ask_same respects _).andThen fun _ => .pure rfl
  | some address => exact assignCell_same name address value

theorem operate_same (operator : BinaryOp) (left right : Value) :
    Same (machine.operate operator left right) (machine.operate operator left right) := by
  cases operator with
  | equal => exact .pure rfl
  | notEqual => exact .pure rfl
  | _ =>
    apply (primitive_same respects left).andThen
    exact fun _ => (primitive_same respects right).andThen fun _ => .pure rfl

theorem operateUnary_same (operator : UnaryOp) (operand : Value) :
    Same (machine.operateUnary operator operand) (machine.operateUnary operator operand) := by
  cases operator with
  | not => exact .pure rfl
  | negate => exact (primitive_same respects operand).andThen fun _ => .pure rfl

theorem placeFrom_same (owner : Value) (key : String)
    (path : List String) :
    Same (machine.placeFrom owner key path) (machine.placeFrom owner key path) := by
  induction path generalizing owner key with
  | nil => exact .pure rfl
  | cons next rest ih =>
    exact (member_same respects owner key).andThen fun inner => ih inner next

theorem place_same (scope : Scope) (target : String) :
    Same (machine.place scope target) (machine.place scope target) := by
  rw [place]
  split
  · exact (lookup_same machine scope _).andThen fun _ => placeFrom_same respects _ _ _
  · exact .pure rfl

theorem put_same (scope : Scope) (place : Place) (value : Value) :
    Same (machine.put scope place value) (machine.put scope place value) := by
  cases place with
  | name name => exact assign_same respects scope name value
  | member owner key => exact setMember_same respects owner key value

end Machine

end Script

end Toolshed
