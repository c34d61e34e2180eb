import Mathlib.Data.List.Basic
import Toolshed.Typing.Initialisation

namespace Toolshed.Initialisation

/-!
# What the order of initialisation reports

A block is reported exactly if one of its steps can touch a value, by the uses in
the log, before the value's own declaration has run.
-/

variable (arena : Arena) (log : UseLog) (step : NodeId) (steps : List NodeId) (index : Nat)

/-- What a step touches, by itself or inside the functions and classes that it uses. -/
inductive Touches : (inside : Bool) → NodeId → Prop where
  | here {use : Use} (uses : use ∈ log.of step) : Touches false use.declaration
  | inside {use : Use} {unit : NodeId} {inside : Bool} {name : String}
      (touches : Touches inside unit)
      (isCode : arena.declaredThing? unit = some (.code name))
      (uses : use ∈ log.of unit) :
      Touches true use.declaration

/-- A value that the step at an index must not touch. -/
def Early (inside : Bool) (id : NodeId) (name : String) : Prop :=
  ∃ hasType,
    arena.declaredThing? id = some (.value name hasType) ∧
    isEarly steps index id && (inside || hasType)

/-- A use that the search meets: what the step touches, at a place in the step. -/
structure Met (reached : ReachedUse) : Prop where
  touches : Touches arena log step reached.through.isSome reached.use.declaration
  site : ∃ use ∈ log.of step, use.site = reached.use.site

/-- A declaration that waits in the queue, or that the search has dealt with. -/
def Handled (queue : List ReachedUse) (entered reported : List NodeId) (inside : Bool)
    (id : NodeId) : Prop :=
  (∃ reached ∈ queue, reached.through.isSome = inside ∧ reached.use.declaration = id) ∨
    (∀ name, arena.declaredThing? id = some (.code name) → id ∈ entered) ∧
    ∀ name, Early arena steps index inside id name → id ∈ reported

/-- The search handles what the step uses, and what the code uses that it entered. -/
structure Search (queue : List ReachedUse) (entered reported : List NodeId) : Prop where
  start :
    ∀ use ∈ log.of step,
      Handled arena steps index queue entered reported false use.declaration
  closed :
    ∀ unit ∈ entered, ∀ use ∈ log.of unit,
      Handled arena steps index queue entered reported true use.declaration

/-- How many uses there are in code that was not entered. -/
def remaining (entered : List NodeId) : Nat :=
  log.countP fun entry => !entered.contains entry.1

/-- Declaring a function or class runs none of its code. -/
def Runs : Prop :=
  ∀ name, arena.declaredThing? step ≠ some (.code name)

variable {arena log step steps index}
variable {queue larger : List ReachedUse} {reached : ReachedUse} {found : Diagnostic}
variable {entered others reported listed : List NodeId} {id : NodeId} {fuel : Nat}
variable {inside : Bool} {name : String}

/-- The search reports only early values that the step touches. -/
theorem early_of_mem_follow
    (met : ∀ reached ∈ queue, Met arena log step reached)
    (member : found ∈ follow arena log steps index fuel queue entered reported) :
    ∃ reached name, Met arena log step reached ∧
      Early arena steps index reached.through.isSome reached.use.declaration name ∧
      found = diagnostic name reached := by
  fun_induction follow arena log steps index fuel queue entered reported with
  | case1 => simp at member
  | case2 => simp at member
  | case3 fuel reached queue entered reported id name hasType isValue early ih =>
    rw [List.forall_mem_cons] at met
    rcases List.mem_cons.mp member with rfl | rest
    · rw [Bool.and_eq_true] at early
      exact ⟨reached, name, met.1, ⟨hasType, isValue, early.1⟩, rfl⟩
    · exact ih met.2 rest
  | case6 fuel reached queue entered reported id name isCode isNew ih =>
    rw [List.forall_mem_cons] at met
    refine ih (List.forall_mem_append.mpr ⟨met.2, fun next isNext => ?_⟩) member
    obtain ⟨use, uses, rfl⟩ := List.mem_map.mp isNext
    have touches := Touches.inside met.1.touches isCode uses
    exact ⟨touches, met.1.site⟩
  | _ =>
    rename_i ih
    exact ih (List.forall_mem_cons.mp met).2 member

/-- The head of the queue is dealt with, and everything else stays handled. -/
theorem Search.next (search : Search arena log step steps index (reached :: queue) entered reported)
    (queued : queue ⊆ larger) (entries : entered ⊆ others) (reports : reported ⊆ listed)
    (head : Handled arena steps index larger others listed reached.through.isSome
      reached.use.declaration)
    (new : ∀ unit ∈ others, unit ∈ entered ∨ ∀ use ∈ log.of unit,
      Handled arena steps index larger others listed true use.declaration) :
    Search arena log step steps index larger others listed := by
  have kept : ∀ inside id, Handled arena steps index (reached :: queue) entered reported inside id →
      Handled arena steps index larger others listed inside id := by
    rintro inside id (⟨other, isOther, rfl, rfl⟩ | ⟨codes, values⟩)
    · rcases List.mem_cons.mp isOther with rfl | later
      · exact head
      · exact .inl ⟨other, queued later, rfl, rfl⟩
    · exact .inr ⟨fun name isCode => entries (codes name isCode),
        fun name early => reports (values name early)⟩
  refine ⟨fun use uses => kept _ _ (search.start use uses), fun unit isUnit => ?_⟩
  rcases new unit isUnit with old | isNew
  · exact fun use uses => kept _ _ (search.closed unit old use uses)
  · exact isNew

/-- When nothing waits any more, all early values that the step touches are reported. -/
theorem Search.mem_reported (search : Search arena log step steps index [] entered reported)
    (touches : Touches arena log step inside id) (early : Early arena steps index inside id name) :
    id ∈ reported := by
  have handled : Handled arena steps index [] entered reported inside id := by
    clear early
    induction touches with
    | here uses => exact search.start _ uses
    | inside _ isCode uses ih =>
      have isEntered := (ih.resolve_left (by simp)).1 _ isCode
      exact search.closed _ isEntered _ uses
  exact (handled.resolve_left (by simp)).2 name early

theorem length_of_add_remaining (log : UseLog) (isNew : id ∉ entered) :
    (log.of id).length + remaining log (id :: entered) = remaining log entered := by
  simp only [UseLog.of, List.length_reverse, remaining]
  induction log with
  | nil => rfl
  | cons entry log ih => grind

/-- With fuel for the queue and for all code that was not entered, the search misses nothing. -/
theorem reported_of_touches
    (search : Search arena log step steps index queue entered reported)
    (enough : queue.length + remaining log entered ≤ fuel)
    (touches : Touches arena log step inside id) (early : Early arena steps index inside id name) :
    id ∈ reported ∨ ∃ reached, reached.use.declaration = id ∧
      diagnostic name reached ∈ follow arena log steps index fuel queue entered reported := by
  fun_induction follow arena log steps index fuel queue entered reported with
  | case1 queue =>
    obtain rfl : queue = [] := List.eq_nil_of_length_eq_zero (by omega)
    exact .inl (search.mem_reported touches early)
  | case2 => exact .inl (search.mem_reported touches early)
  | case3 fuel reached queue entered reported other title hasType isValue isEarly ih =>
    rw [List.length_cons] at enough
    have next := search.next (List.Subset.refl queue) (List.Subset.refl entered)
      (List.subset_cons_self other reported)
      (.inr ⟨by simp [other, isValue], fun _ _ => List.mem_cons_self⟩) fun _ => .inl
    rcases ih next (by omega) with old | ⟨found, isFound, member⟩
    · rcases List.mem_cons.mp old with rfl | old
      · obtain ⟨_, same, _⟩ := early
        obtain ⟨rfl, _⟩ : title = name ∧ _ := by simpa [isValue] using same
        exact .inr ⟨reached, rfl, List.mem_cons_self⟩
      · exact .inl old
    · exact .inr ⟨found, isFound, List.mem_cons_of_mem _ member⟩
  | case6 fuel reached queue entered reported other title isCode isNew ih =>
    have fresh : other ∉ entered := by simpa using isNew
    have count := length_of_add_remaining log fresh
    refine ih (search.next (List.subset_append_left _ _) (List.subset_cons_self _ _)
      (List.Subset.refl _) (.inr ?_) fun unit isUnit => ?_) ?_
    · exact ⟨fun _ _ => List.mem_cons_self, fun _ early => by simp [Early, other, isCode] at early⟩
    · rcases List.mem_cons.mp isUnit with rfl | old
      · exact .inr fun use uses =>
          .inl ⟨_, List.mem_append_right _ (List.mem_map_of_mem uses), rfl, rfl⟩
      · exact .inl old
    · rw [List.length_append, reachedThrough, List.length_map]
      rw [List.length_cons] at enough
      dsimp only [other] at count ⊢
      omega
  | _ =>
    rename_i ih
    rw [List.length_cons] at enough
    refine ih (search.next (List.Subset.refl _) (List.Subset.refl _) (List.Subset.refl _)
      (.inr ?_) fun _ => .inl) (by omega)
    grind [Early]

/-- Each diagnostic is about an early value that a step touches. -/
theorem early_of_mem_diagnostics (member : found ∈ diagnostics arena log steps) :
    ∃ step index, steps[index]? = some step ∧ Runs arena step ∧ ∃ reached name,
      Met arena log step reached ∧
      Early arena steps index reached.through.isSome reached.use.declaration name ∧
      found = diagnostic name reached := by
  simp only [diagnostics, List.mem_flatMap] at member
  obtain ⟨⟨step, index⟩, isStep, isFound⟩ := member
  unfold stepDiagnostics at isFound
  split at isFound
  · simp at isFound
  · next runs =>
    refine ⟨step, index, List.mem_zipIdx_iff_getElem?.mp isStep, runs, ?_⟩
    refine early_of_mem_follow (fun reached isReached => ?_) isFound
    obtain ⟨use, uses, rfl⟩ := List.mem_map.mp isReached
    exact ⟨.here uses, use, uses, rfl⟩

/-- The check is silent exactly if no step touches a value before the value's declaration. -/
theorem diagnostics_eq_nil_iff :
    diagnostics arena log steps = [] ↔
      ∀ index step, steps[index]? = some step → Runs arena step →
        ∀ inside id name, Touches arena log step inside id →
          ¬Early arena steps index inside id name := by
  constructor
  · intro silent index step isStep runs inside id name touches early
    have quiet : stepDiagnostics arena log steps step index = [] :=
      List.flatMap_eq_nil_iff.mp silent (step, index) (List.mem_zipIdx_iff_getElem?.mpr isStep)
    have search : Search arena log step steps index ((log.of step).map fun use => ⟨use, none⟩)
        [] [] :=
      ⟨fun use uses => .inl ⟨_, List.mem_map_of_mem uses, rfl, rfl⟩, by simp⟩
    have few : (log.of step).length ≤ log.length := by
      rw [UseLog.of, List.length_reverse]
      exact List.length_filterMap_le _ _
    have rest : remaining log [] ≤ log.length := List.countP_le_length
    rcases reported_of_touches search
      (show _ ≤ 2 * log.length + 1 by rw [List.length_map]; omega) touches early with
      old | ⟨reached, _, member⟩
    · simp at old
    · unfold stepDiagnostics at quiet
      split at quiet
      · next name isCode => exact runs name isCode
      · simp [quiet] at member
  · intro clear
    refine List.eq_nil_iff_forall_not_mem.mpr fun found member => ?_
    obtain ⟨step, index, isStep, runs, reached, name, met, early, _⟩ :=
      early_of_mem_diagnostics member
    exact clear index step isStep runs _ _ name met.touches early

end Toolshed.Initialisation
