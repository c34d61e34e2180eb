import Toolshed.Proofs.Grammar.Levels
import Toolshed.Proofs.Located
import Toolshed.Proofs.Syntax.Proper

namespace Toolshed

/-!
# How reading grows a store

Reading only adds nodes, and a new node has only children that were made for it.
So the roots that a reader holds stay roots.
-/

/--
What a text may have: some names, and some ranges with the smallest range over any
two of them.
-/
structure Allowance where
  name : String → Prop
  range : Range → Prop
  origin : range (.point .origin)
  merge : ∀ {first second}, range first → range second → range (first.merge second)

def Place.Fits (fits : Range → Prop) : Place → Prop
  | .range found => fits found
  | .node _ => True

namespace ParseState

def size (state : ParseState) : Nat :=
  state.arena.nodes.size

structure Sound (allowed : Allowance) (state : ParseState) : Prop where
  arena : state.arena.Proper allowed.name
  ranges : ∀ range ∈ state.arena.locations, allowed.range range
  items :
    ∀ item ∈ state.finish :: state.rest,
      allowed.range item.range ∧
        (item.kind = .identifier → allowed.name (item.token.value.getD item.token.raw))
  finish : state.finish.kind = .finish
  previous : allowed.range state.previous
  diagnostics :
    ∀ diagnostic ∈ state.diagnostics,
      diagnostic.InText state.size ∧ diagnostic.place.Fits allowed.range

/--
One state comes after another, and every node that was made between them has
only children from `base` on.
-/
structure Grows
    (allowed : Allowance)
    (base : Nat)
    (before after : ParseState) : Prop where
  sound : after.Sound allowed
  extra :
    ∃ extra : List Node,
      after.arena.nodes.toList = before.arena.nodes.toList ++ extra ∧
        ∀ node ∈ extra, ∀ child : Nat, child ∈ node.children → base ≤ child

structure Held (base : Nat) (slots : List Slot) (state : ParseState) : Prop where
  nodup : (slots.map Slot.child).Nodup
  admits : ∀ slot ∈ slots, state.arena.Admits slot.category slot.child
  free : ∀ slot ∈ slots, slot.child ∉ state.arena.owned
  newer : ∀ slot ∈ slots, base ≤ slot.child

structure Holding
    (allowed : Allowance)
    (base : Nat)
    (slots : List Slot)
    (state : ParseState) : Prop where
  sound : state.Sound allowed
  smaller : base ≤ state.size
  held : Held base slots state

variable {allowed : Allowance} {base lower : Nat} {before middle after state : ParseState}

namespace Sound

variable (sound : state.Sound allowed)
include sound

theorem current : allowed.range state.current.range := by
  refine (sound.items state.current ?_).1
  unfold ParseState.current
  cases state.rest <;> simp

theorem rangeOf (id : NodeId) :
    allowed.range (state.arena.rangeOf id) := by
  unfold Arena.rangeOf Array.getD
  split
  · exact sound.ranges _ (Array.getElem_mem _)
  · exact allowed.origin

theorem rangeFrom {start : Range} (isStart : allowed.range start) :
    allowed.range (state.rangeFrom start) :=
  allowed.merge isStart sound.previous

theorem withDepth (depth : Nat) :
    ({ state with depth := depth } : ParseState).Sound allowed := by
  obtain ⟨arena, ranges, items, finish, previous, diagnostics⟩ := sound
  exact ⟨arena, ranges, items, finish, previous, diagnostics⟩

end Sound

namespace Grows

theorem size_le (grows : Grows allowed base before after) : before.size ≤ after.size := by
  obtain ⟨extra, nodes, _⟩ := grows.extra
  have lengths := congrArg List.length nodes
  simp only [Array.length_toList, List.length_append] at lengths
  simp only [ParseState.size]
  omega

theorem refl (sound : state.Sound allowed) : Grows allowed base state state :=
  ⟨sound, [], by simp, by simp⟩

theorem trans (first : Grows allowed base before middle)
    (second : Grows allowed base middle after) : Grows allowed base before after := by
  obtain ⟨firstExtra, firstNodes, firstChildren⟩ := first.extra
  obtain ⟨secondExtra, secondNodes, secondChildren⟩ := second.extra
  refine ⟨second.sound, firstExtra ++ secondExtra, ?_, ?_⟩
  · rw [secondNodes, firstNodes, List.append_assoc]
  · intro node member
    rcases List.mem_append.mp member with inFirst | inSecond
    · exact firstChildren node inFirst
    · exact secondChildren node inSecond

theorem weaken (grows : Grows allowed base before after) (smaller : lower ≤ base) :
    Grows allowed lower before after := by
  obtain ⟨extra, nodes, children⟩ := grows.extra
  refine ⟨grows.sound, extra, nodes, ?_⟩
  intro node member child isChild
  exact Nat.le_trans smaller (children node member child isChild)

theorem node? (grows : Grows allowed base before after) {id : NodeId} {node : Node}
    (found : before.arena.node? id = some node) : after.arena.node? id = some node := by
  obtain ⟨extra, nodes, _⟩ := grows.extra
  have bound := Arena.lt_size_of_node? found
  simp only [Arena.node?, ← Array.getElem?_toList] at found ⊢
  rw [nodes, List.getElem?_append_left (by simpa using bound)]
  exact found

theorem of_same_arena (sound : before.Sound allowed) (sameArena : after.arena = before.arena)
    (sameFinish : after.finish = before.finish) (suffix : ∀ item ∈ after.rest, item ∈ before.rest)
    (previous : allowed.range after.previous)
    (diagnostics :
      ∀ diagnostic ∈ after.diagnostics,
        diagnostic.InText before.size ∧ diagnostic.place.Fits allowed.range) :
    Grows allowed base before after := by
  refine ⟨⟨?_, ?_, ?_, ?_, previous, ?_⟩, [], by simp [sameArena], by simp⟩
  · rw [sameArena]
    exact sound.arena
  · rw [sameArena]
    exact sound.ranges
  · rw [sameFinish]
    obtain ⟨ofFinish, ofRest⟩ := List.forall_mem_cons.mp sound.items
    exact List.forall_mem_cons.mpr ⟨ofFinish, fun item member => ofRest item (suffix item member)⟩
  · rw [sameFinish]
    exact sound.finish
  · intro diagnostic member
    have sameSize : after.size = before.size := by
      simp [ParseState.size, sameArena]
    rw [sameSize]
    exact diagnostics diagnostic member

end Grows

namespace Held

variable {slots more : List Slot}

theorem nil : Held base [] state :=
  ⟨by simp, by simp, by simp, by simp⟩

theorem lt_size (held : Held base slots state) {slot : Slot} (member : slot ∈ slots) :
    slot.child < state.size :=
  (held.admits slot member).lt_size

theorem left (held : Held base (slots ++ more) state) : Held base slots state := by
  have inside : ∀ slot ∈ slots, slot ∈ slots ++ more :=
    fun slot member => List.mem_append_left more member
  refine ⟨?_, fun slot member => held.admits slot (inside slot member),
    fun slot member => held.free slot (inside slot member),
    fun slot member => held.newer slot (inside slot member)⟩
  have nodup := held.nodup
  rw [List.map_append] at nodup
  exact (List.nodup_append.mp nodup).1

theorem grow (held : Held base slots before) (grows : Grows allowed before.size before after) :
    Held base slots after := by
  refine ⟨held.nodup, ?_, ?_, held.newer⟩
  · intro slot member
    obtain ⟨node, found, admitted⟩ := held.admits slot member
    exact ⟨node, grows.node? found, admitted⟩
  · intro slot member isOwned
    obtain ⟨extra, nodes, children⟩ := grows.extra
    rw [Arena.owned, nodes, List.flatMap_append] at isOwned
    rcases List.mem_append.mp isOwned with old | new
    · exact held.free slot member old
    · obtain ⟨owner, ownerMember, isChild⟩ := List.mem_flatMap.mp new
      have newer := children owner ownerMember slot.child isChild
      exact absurd (held.lt_size member) (Nat.not_lt.mpr newer)

theorem append (held : Held base slots middle) (grows : Grows allowed middle.size middle after)
    (new : Held middle.size more after) (smaller : base ≤ middle.size) :
    Held base (slots ++ more) after := by
  have kept := held.grow grows
  refine ⟨?_, ?_, ?_, ?_⟩
  · rw [List.map_append]
    refine List.nodup_append.mpr ⟨held.nodup, new.nodup, ?_⟩
    intro child inSlots other inMore same
    obtain ⟨slot, member, rfl⟩ := List.mem_map.mp inSlots
    obtain ⟨newSlot, newMember, rfl⟩ := List.mem_map.mp inMore
    have newer := new.newer newSlot newMember
    rw [← same] at newer
    exact absurd (held.lt_size member) (Nat.not_lt.mpr newer)
  · intro slot member
    rcases List.mem_append.mp member with old | recent
    · exact kept.admits slot old
    · exact new.admits slot recent
  · intro slot member
    rcases List.mem_append.mp member with old | recent
    · exact kept.free slot old
    · exact new.free slot recent
  · intro slot member
    rcases List.mem_append.mp member with old | recent
    · exact held.newer slot old
    · exact Nat.le_trans smaller (new.newer slot recent)

end Held

namespace Holding

variable {slots more : List Slot}

theorem start (sound : state.Sound allowed) : Holding allowed state.size [] state :=
  ⟨sound, Nat.le_refl _, Held.nil⟩

theorem left (holding : Holding allowed base (slots ++ more) state) :
    Holding allowed base slots state :=
  ⟨holding.sound, holding.smaller, holding.held.left⟩

theorem grow (holding : Holding allowed base slots before)
    (grows : Grows allowed before.size before after) : Holding allowed base slots after :=
  ⟨grows.sound, Nat.le_trans holding.smaller grows.size_le, holding.held.grow grows⟩

end Holding

end ParseState

namespace Parse

open ParseState

variable {allowed : Allowance} {base : Nat} {state : ParseState} {α β : Type}
variable {fault : Fault} {condition : α → ParseState → Prop} {kind : TokenKind} {node : Node}
variable {slots : List Slot} {phrase : Parse α} {found : α → List Slot} {range : Range}
variable {items : List Item} {slots : List Slot} {previous : Range}

/--
A reader that starts in a state gives new nodes only children from `base` on, and
what it answers satisfies a condition on it and on the state after it.
-/
structure Builds
    (allowed : Allowance)
    (base : Nat)
    (state : ParseState)
    (reader : Parse α)
    (condition : α → ParseState → Prop) : Prop where
  grows : Grows allowed base state (reader state).2
  answers : ∀ value, (reader state).1 = some value → condition value (reader state).2

def Takes (allowed : Allowance) (reader : Parse α) (found : α → List Slot) : Prop :=
  ∀ state, state.Sound allowed →
    Builds allowed state.size state reader fun value => Held state.size (found value)

def Reads (allowed : Allowance) (category : Category) (reader : Parse NodeId) : Prop :=
  Takes allowed reader fun id => [⟨category, id⟩]

def ReadsList
    (allowed : Allowance)
    (category : Category)
    (reader : Parse (List NodeId)) : Prop :=
  Takes allowed reader fun ids => ids.map (.mk category)

def ReadsOption
    (allowed : Allowance)
    (category : Category)
    (reader : Parse (Option NodeId)) : Prop :=
  Takes allowed reader fun id => id.toList.map (.mk category)

class Quiet (allowed : Allowance) (reader : Parse α) : Prop where
  takes : Takes allowed reader fun _ => []

namespace Builds

variable {condition : β → ParseState → Prop}
variable {value : β} {reader : Parse α} {next : α → Parse β} {slots : List Slot}
variable {found : α → List Slot}

theorem pure (sound : state.Sound allowed) (holds : condition value state) :
    Builds allowed base state (Pure.pure value) condition := by
  refine ⟨.refl sound, ?_⟩
  intro answer same
  obtain rfl : value = answer := Option.some.inj same
  exact holds

theorem bind {higher : Nat} {between : α → ParseState → Prop}
    (first : Builds allowed higher state reader between) (smaller : base ≤ higher)
    (second :
      ∀ value after,
        Grows allowed higher state after →
        between value after →
        Builds allowed base after (next value) condition) :
    Builds allowed base state (reader >>= next) condition := by
  cases result : reader state with
  | mk answer after =>
    have grows := first.grows
    have answers := first.answers
    rw [result] at grows answers
    cases answer with
    | none =>
      have shape : (reader >>= next) state = (none, after) := by
        simp [Bind.bind, result]
      constructor
      · rw [shape]
        exact grows.weaken smaller
      · simp [shape]
    | some value =>
      have shape : (reader >>= next) state = next value after := by
        simp [Bind.bind, result]
      have later := second value after grows (answers value rfl)
      constructor
      · rw [shape]
        exact (grows.weaken smaller).trans later.grows
      · rw [shape]
        exact later.answers

theorem ask {question : ParseState → α}
    (holds : Builds allowed base state (next (question state)) condition) :
    Builds allowed base state (Parse.ask question >>= next) condition :=
  ⟨holds.grows, holds.answers⟩

theorem take (holding : Holding allowed base slots state) (takes : Takes allowed reader found)
    (second :
      ∀ value after,
        Holding allowed base (slots ++ found value) after →
        Builds allowed base after (next value) condition) :
    Builds allowed base state (reader >>= next) condition := by
  refine bind (takes state holding.sound) holding.smaller ?_
  intro value after grows new
  refine second value after ⟨grows.sound, ?_, ?_⟩
  · exact Nat.le_trans holding.smaller grows.size_le
  · exact holding.held.append grows new holding.smaller

theorem last (holding : Holding allowed base slots state) (takes : Takes allowed reader found) :
    Builds allowed base state reader fun value => Held base (slots ++ found value) := by
  have builds := takes state holding.sound
  refine ⟨builds.grows.weaken holding.smaller, ?_⟩
  intro value same
  exact holding.held.append builds.grows (builds.answers value same) holding.smaller

theorem replace (first : Builds allowed base state reader fun value => Held base (found value))
    (smaller : base ≤ state.size)
    (second :
      ∀ value after,
        Holding allowed base (found value) after →
        Builds allowed base after (next value) condition) :
    Builds allowed base state (reader >>= next) condition := by
  refine bind first (Nat.le_refl _) ?_
  intro value after grows held
  exact second value after ⟨grows.sound, Nat.le_trans smaller grows.size_le, held⟩

theorem pass [quiet : Quiet allowed reader] (holding : Holding allowed base slots state)
    (second :
      ∀ value after,
        Holding allowed base slots after →
        Builds allowed base after (next value) condition) :
    Builds allowed base state (reader >>= next) condition := by
  refine take holding quiet.takes ?_
  intro value after later
  exact second value after later.left

theorem done {found : β → List Slot} (holding : Holding allowed base (found value) state) :
    Builds allowed base state (Pure.pure value) fun answer => Held base (found answer) :=
  pure holding.sound holding.held

theorem branch {test : Prop} [Decidable test] {yes no : Parse β}
    (whenYes : Builds allowed base state yes condition)
    (whenNo : Builds allowed base state no condition) :
    Builds allowed base state (if test then yes else no) condition := by
  split
  · exact whenYes
  · exact whenNo

theorem fails {reader : Parse β} (grows : Grows allowed base state (reader state).2)
    (nothing : (reader state).1 = none) : Builds allowed base state reader condition :=
  ⟨grows, by simp [nothing]⟩

end Builds

theorem grows_advance (sound : state.Sound allowed) :
    Grows allowed base state state.advance := by
  unfold ParseState.advance
  split
  · exact .refl sound
  · next item rest shape =>
      have items : item ∈ state.finish :: state.rest := by simp [shape]
      refine .of_same_arena sound rfl rfl ?_ (sound.items item items).1 sound.diagnostics
      intro other member
      rw [shape]
      exact List.mem_cons_of_mem _ member

theorem grows_report (sound : state.Sound allowed) {place : Place}
    (inText : (⟨fault, place⟩ : Diagnostic).InText state.size)
    (fits : place.Fits allowed.range) : Grows allowed base state (state.report fault place) := by
  refine .of_same_arena sound rfl rfl (fun _ member => member) sound.previous ?_
  intro diagnostic member
  rcases List.mem_append.mp member with old | new
  · exact sound.diagnostics diagnostic old
  · obtain rfl := List.mem_singleton.mp new
    exact ⟨inText, fits⟩

theorem builds_refuse {fault : TokenKind → Fault} (sound : state.Sound allowed)
    (textual : ∀ kind, (fault kind).kind ≠ .internal ∧ (fault kind).kind ≠ .moduleResolution) :
    Builds allowed base state (refuse fault) condition := by
  refine .fails (grows_report sound ⟨textual _, ?_⟩ sound.current) rfl
  simp

theorem quiet_of_grows {reader : Parse α}
    (grows : ∀ state, state.Sound allowed → Grows allowed state.size state (reader state).2) :
    Quiet allowed reader :=
  ⟨fun state sound => ⟨grows state sound, fun _ _ => Held.nil⟩⟩

instance quiet_next : Quiet allowed next :=
  quiet_of_grows fun _ sound => grows_advance sound

instance quiet_eat : Quiet allowed (eat kind) := by
  refine quiet_of_grows fun state sound => ?_
  unfold eat
  split
  · exact grows_advance sound
  · exact .refl sound

instance quiet_expect : Quiet allowed (expect kind) := by
  refine quiet_of_grows fun state sound => ?_
  unfold expect
  split
  · exact grows_advance sound
  · exact grows_report sound ⟨by simp [Fault.kind], by simp⟩ sound.current

instance quiet_terminator : Quiet allowed terminator := by
  refine quiet_of_grows fun state sound => ?_
  unfold terminator
  split
  · exact grows_advance sound
  · split
    · exact .refl sound
    · exact grows_report sound ⟨by simp [Fault.kind], by simp⟩ sound.current

theorem mem_of_mem_skip {moved : Bool} {item : Item}
    (member : item ∈ (skip moved previous items).2) : item ∈ items := by
  induction items generalizing moved previous with
  | nil => simp [skip] at member
  | cons first rest ih =>
    unfold skip at member
    split at member
    · exact member
    · split at member
      · exact List.mem_cons_of_mem _ member
      · split at member
        · exact member
        · exact List.mem_cons_of_mem _ (ih member)

theorem range_skip {fits : Range → Prop} {moved : Bool} (isPrevious : fits previous)
    (areItems : ∀ item ∈ items, fits item.range) : fits (skip moved previous items).1 := by
  induction items generalizing moved previous with
  | nil => exact isPrevious
  | cons first rest ih =>
    obtain ⟨isFirst, areRest⟩ := List.forall_mem_cons.mp areItems
    unfold skip
    split
    · exact isPrevious
    · split
      · exact isFirst
      · split
        · exact isPrevious
        · exact ih isFirst areRest

instance quiet_synchronise {left : Nat} : Quiet allowed (synchronise left) := by
  refine quiet_of_grows fun state sound => ?_
  have ranges := fun item member => (sound.items item (List.mem_cons_of_mem _ member)).1
  exact .of_same_arena sound rfl rfl (fun _ => mem_of_mem_skip)
    (range_skip sound.previous ranges) sound.diagnostics

theorem builds_note {node : Nat} (sound : state.Sound allowed)
    (textual : fault.kind ≠ .internal ∧ fault.kind ≠ .moduleResolution)
    (inside : node < state.size) : Builds allowed base state (note fault node) fun _ _ => True := by
  refine ⟨grows_report sound ⟨textual, ?_⟩ trivial, fun _ _ => trivial⟩
  intro other place
  obtain rfl : node = other := by simpa using place
  exact inside

theorem Builds.note {condition : β → ParseState → Prop} {slot : Slot} {next : Unit → Parse β}
    (holding : Holding allowed base slots state)
    (textual : fault.kind ≠ .internal ∧ fault.kind ≠ .moduleResolution) (member : slot ∈ slots)
    (second :
      ∀ after,
        Holding allowed base slots after →
        Builds allowed base after (next ()) condition) :
    Builds allowed base state (Parse.note fault slot.child >>= next) condition := by
  have inside := holding.held.lt_size member
  refine bind (builds_note holding.sound textual inside) holding.smaller ?_
  intro _ after grows _
  exact second after (holding.grow grows)

theorem builds_name (sound : state.Sound allowed) :
    Builds allowed base state name fun found _ => allowed.name found := by
  by_cases isName : state.nextIs .identifier = true
  · have result : name state =
        (some (state.current.token.value.getD state.current.token.raw), state.advance) := by
      simp [name, isName]
    constructor
    · rw [result]
      exact grows_advance sound
    · rw [result]
      intro found same
      obtain rfl := Option.some.inj same
      cases shape : state.rest with
      | nil =>
        have atFinish : state.finish.kind = .identifier := by
          simpa [nextIs, kind, current, shape] using isName
        simp [sound.finish] at atFinish
      | cons item rest =>
        have isIdentifier : item.kind = .identifier := by
          simpa [nextIs, kind, current, shape] using isName
        have inRest := (sound.items item (by simp [shape])).2 isIdentifier
        simpa [current, shape] using inRest
  · have result : name state = refuse .expectedIdentifier state := by
      simp [name, isName]
    refine .fails ?_ ?_
    · rw [result]
      exact grows_report sound ⟨by simp [Fault.kind], by simp⟩ sound.current
    · rw [result]
      rfl

section

variable (holding : Holding allowed base slots state)
include holding

theorem Builds.name {condition : β → ParseState → Prop} {next : String → Parse β}
    (second :
      ∀ name after,
        allowed.name name →
        Holding allowed base slots after →
        Builds allowed base after (next name) condition) :
    Builds allowed base state (Parse.name >>= next) condition := by
  refine bind (builds_name holding.sound) holding.smaller ?_
  intro name after grows isAllowed
  exact second name after isAllowed (holding.grow grows)

theorem Builds.next {condition : β → ParseState → Prop} {rest : Token → Parse β}
    (second :
      ∀ token after,
        allowed.range token.range →
        Holding allowed base slots after →
        Builds allowed base after (rest token) condition) :
    Builds allowed base state (Parse.next >>= rest) condition := by
  have sound := holding.sound
  have later := second state.current.token state.advance sound.current
    (holding.grow (grows_advance sound))
  exact ⟨(grows_advance sound).trans later.grows, later.answers⟩

theorem holding_withDepth (depth : Nat) :
    Holding allowed base slots { state with depth := depth } := by
  obtain ⟨sound, smaller, ⟨nodup, admits, free, newer⟩⟩ := holding
  exact ⟨sound.withDepth depth, smaller, ⟨nodup, admits, free, newer⟩⟩

end

theorem Builds.deeper (sound : state.Sound allowed)
    (builds :
      Builds allowed base { state with depth := state.depth + 1 } phrase fun value =>
        Held base (found value)) :
    Builds allowed base state (Parse.deeper phrase) fun value => Held base (found value) := by
  by_cases tooDeep : maxNesting ≤ state.depth
  · refine .fails ?_ ?_
    · rw [deeper_of_deep _ tooDeep]
      exact grows_report sound ⟨by simp [Fault.kind], by simp⟩ sound.current
    · rw [deeper_of_deep _ tooDeep]
      rfl
  · obtain ⟨extra, nodes, children⟩ := builds.grows.extra
    constructor
    · rw [deeper_of_not_deep _ tooDeep]
      exact ⟨builds.grows.sound.withDepth _, extra, nodes, children⟩
    · rw [deeper_of_not_deep _ tooDeep]
      intro value same
      obtain ⟨nodup, admits, free, newer⟩ := builds.answers value same
      exact ⟨nodup, admits, free, newer⟩

theorem Takes.deeper (takes : Takes allowed phrase found) :
    Takes allowed (Parse.deeper phrase) found := by
  intro state sound
  have holding := holding_withDepth (.start sound) (state.depth + 1)
  exact .deeper sound (takes _ holding.sound)

theorem builds_attempt (builds : Builds allowed base state phrase condition) :
    Builds allowed base state (attempt phrase) fun answer after =>
      ∀ value, answer = some value → condition value after := by
  refine ⟨builds.grows, ?_⟩
  intro answer same value isSome
  obtain rfl : (phrase state).1 = answer := Option.some.inj same
  exact builds.answers value isSome

theorem Takes.attempt (takes : Takes allowed phrase found) :
    Takes allowed (Parse.attempt phrase) fun answer => (answer.map found).getD [] := by
  intro state sound
  have builds := builds_attempt (takes state sound)
  refine ⟨builds.grows, ?_⟩
  intro answer same
  cases answer with
  | none => exact Held.nil
  | some value => exact builds.answers _ same value rfl

theorem exists_slot_of_child {child : NodeId} (isChild : child ∈ node.children) :
    ∃ slot ∈ node.slots, slot.child = child := by
  rw [← node.slots_child] at isChild
  exact List.mem_map.mp isChild

theorem grows_make (holding : Holding allowed base node.slots state)
    (names : ∀ name ∈ node.names, allowed.name name) (isRange : allowed.range range) :
    Grows allowed base state (make node range state).2 := by
  obtain ⟨sound, smaller, held⟩ := holding
  have proper : (state.arena.add node range).Proper allowed.name := by
    refine sound.arena.add held.admits ?_ ?_ names
    · rw [← node.slots_child]
      exact held.nodup
    · intro child isChild
      obtain ⟨slot, member, rfl⟩ := exists_slot_of_child isChild
      exact held.free slot member
  have ranges : ∀ other ∈ state.arena.locations.push range, allowed.range other := by
    intro other member
    rcases Array.mem_push.mp member with old | rfl
    · exact sound.ranges other old
    · exact isRange
  refine ⟨⟨proper, ranges, sound.items, sound.finish, sound.previous, ?_⟩, [node], ?_, ?_⟩
  · intro diagnostic member
    obtain ⟨inText, fits⟩ := sound.diagnostics diagnostic member
    exact ⟨inText.mono (by simp [make, ParseState.size]), fits⟩
  · simp only [make, Arena.add_nodes, Array.toList_push]
  · intro made member child isChild
    obtain rfl := List.mem_singleton.mp member
    obtain ⟨slot, inSlots, rfl⟩ := exists_slot_of_child isChild
    exact held.newer slot inSlots

theorem node?_make {id : NodeId} (made : (make node range state).1 = some id) :
    (make node range state).2.arena.node? id = some node := by
  obtain rfl : state.arena.nodes.size = id := Option.some.inj made
  simp [make, Arena.node?_add]

theorem builds_make (category : Category) (holding : Holding allowed base node.slots state)
    (admitted : category.admits node = true) (names : ∀ name ∈ node.names, allowed.name name)
    (isRange : allowed.range range) :
    Builds allowed base state (make node range) fun id => Held base [⟨category, id⟩] := by
  refine ⟨grows_make holding names isRange, ?_⟩
  obtain ⟨sound, smaller, held⟩ := holding
  intro id same
  have found := node?_make same
  obtain rfl : state.arena.nodes.size = id := Option.some.inj same
  have free : state.arena.nodes.size ∉ (state.arena.add node range).owned := by
    intro isOwned
    rw [Arena.owned_add] at isOwned
    rcases List.mem_append.mp isOwned with old | new
    · exact Nat.lt_irrefl _ (sound.arena.lt_size_of_mem_owned old)
    · obtain ⟨slot, inSlots, same⟩ := exists_slot_of_child new
      have inside := held.lt_size inSlots
      rw [same] at inside
      exact Nat.lt_irrefl _ inside
  refine ⟨by simp, ?_, ?_, ?_⟩
  · intro slot member
    obtain rfl := List.mem_singleton.mp member
    exact ⟨node, found, admitted⟩
  · intro slot member
    obtain rfl := List.mem_singleton.mp member
    exact free
  · intro slot member
    obtain rfl := List.mem_singleton.mp member
    exact smaller

theorem builds_makeFrom {start : Range} (category : Category)
    (holding : Holding allowed base node.slots state) (admitted : category.admits node = true)
    (names : ∀ name ∈ node.names, allowed.name name) (isStart : allowed.range start) :
    Builds allowed base state (makeFrom start node) fun id => Held base [⟨category, id⟩] := by
  have made : Builds allowed base state (make node (state.rangeFrom start)) fun id =>
      Held base [⟨category, id⟩] :=
    builds_make category holding admitted names (holding.sound.rangeFrom isStart)
  exact ⟨made.grows, made.answers⟩

def Total (reader : Parse α) : Prop :=
  ∀ state, ∃ value after, reader state = (some value, after)

namespace Total

theorem pure {value : α} : Total (Pure.pure value) :=
  fun state => ⟨value, state, rfl⟩

theorem ask {question : ParseState → α} : Total (Parse.ask question) :=
  fun state => ⟨question state, state, rfl⟩

theorem attempt : Total (Parse.attempt phrase) :=
  fun state => ⟨(phrase state).1, (phrase state).2, rfl⟩

theorem synchronise {left : Nat} : Total (Parse.synchronise left) :=
  fun state => ⟨(), state.synchronise left, rfl⟩

theorem make : Total (Parse.make node range) :=
  fun state => ⟨state.arena.next, _, rfl⟩

theorem eat : Total (Parse.eat kind) := by
  intro state
  unfold Parse.eat
  split
  · exact ⟨true, state.advance, rfl⟩
  · exact ⟨false, state, rfl⟩

theorem bind {reader : Parse α} {next : α → Parse β} (first : Total reader)
    (second : ∀ value, Total (next value)) : Total (reader >>= next) := by
  intro state
  obtain ⟨value, middle, result⟩ := first state
  obtain ⟨answer, after, final⟩ := second value middle
  refine ⟨answer, after, ?_⟩
  simp only [Bind.bind, result]
  exact final

end Total

end Parse

end Toolshed
