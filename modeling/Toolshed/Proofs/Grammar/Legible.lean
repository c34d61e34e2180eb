import Toolshed.Proofs.Grammar.Found
import Toolshed.Proofs.Grammar.Nested

namespace Toolshed

/-!
# Printed phrases are read

What is printed for a phrase is read as the phrase if what follows does not carry
it on. A phrase needs no more room than twice its height.
-/

variable {sign : Symbol} {all : List Tier} {state : ParseState} {rest : List Item}
variable {type : TypeExpression} {parameter : Parameter}

namespace Item

variable {item : Item}

/-- The next item is the sign, on the same line as the item before it. -/
def continues (item : Item) (sign : Symbol) : Bool :=
  decide (item.kind = .symbol sign) && !item.fresh

/-- None of the signs goes on with the phrase before the item. -/
def Halts (signs : List Symbol) (item : Item) : Prop :=
  ∀ sign ∈ signs, item.continues sign = false

def suffixSigns : List Symbol :=
  [.leftParen, .dot]

structure EndsLine (item : Item) : Prop where
  fresh : item.fresh = true ∨ item.kind = .finish
  notSemicolon : item.kind ≠ .symbol .semicolon
  notEqual : item.kind ≠ .symbol .equal
  notElse : item.kind ≠ .keyword .elseWord

theorem Halts.mono {signs fewer : List Symbol} (halts : item.Halts signs) (subset : fewer ⊆ signs) :
    item.Halts fewer :=
  fun sign member => halts sign (subset member)

theorem EndsLine.halts (ends : item.EndsLine) (signs : List Symbol) : item.Halts signs := by
  intro sign _
  rcases ends.fresh with isFresh | isFinish
  · simp [continues, isFresh]
  · simp [continues, isFinish]

theorem halts_of_ne {signs : List Symbol} (others : ∀ sign ∈ signs, item.kind ≠ .symbol sign) :
    item.Halts signs := by
  intro sign member
  simp [continues, others sign member]

end Item

def Tier.signs (all : List Tier) : List Symbol :=
  all.flatMap fun tier => tier.map Prod.fst

theorem Tier.mem_signs_cons {tier : Tier} :
    sign ∈ Tier.signs (tier :: all) ↔ sign ∈ tier.map Prod.fst ∨ sign ∈ Tier.signs all :=
  List.mem_append

theorem Tier.mem_signs_append {looser : List Tier} :
    sign ∈ Tier.signs (looser ++ all) ↔ sign ∈ Tier.signs looser ∨ sign ∈ Tier.signs all := by
  rw [Tier.signs, List.flatMap_append, List.mem_append]
  rfl

def Item.expressionSigns : List Symbol :=
  Item.suffixSigns ++ Tier.signs Tier.all

@[simp]
theorem Item.kind_word (fresh : Bool) (keyword : Keyword) :
    (Item.word fresh keyword).kind = .keyword keyword :=
  rfl

@[simp]
theorem Item.kind_symbol (fresh : Bool) (sign : Symbol) :
    (Item.symbol fresh sign).kind = .symbol sign :=
  rfl

@[simp]
theorem Item.fresh_symbol (fresh : Bool) (sign : Symbol) :
    (Item.symbol fresh sign).fresh = fresh :=
  rfl

@[simp]
theorem Item.kind_name (fresh : Bool) (text : String) :
    (Item.name fresh text).kind = .identifier :=
  rfl

theorem Item.symbol_halts {signs : List Symbol} (fresh : Bool) (other : sign ∉ signs) :
    (Item.symbol fresh sign).Halts signs :=
  halts_of_ne fun _ member same => other (TokenKind.symbol.inj same ▸ member)

def ParseState.following (state : ParseState) (rest : List Item) : Item :=
  rest.headD state.finish

theorem ParseState.current_of_rest (items : state.rest = rest) :
    state.current = state.following rest := by
  rw [ParseState.current, ParseState.following, items]

theorem ParseState.kind_of_rest (items : state.rest = rest) :
    state.kind = (state.following rest).kind := by
  rw [ParseState.kind, current_of_rest items]

theorem ParseState.Passes.following_eq {before after : ParseState} {others : List Item}
    (passes : before.Passes after others) (rest : List Item) :
    after.following rest = before.following rest := by
  rw [ParseState.following, ParseState.following, passes.finish]

namespace Grammar

open Parse ParseState

variable {room levels : Nat} {state : ParseState} {rest : List Item}

variable {γ : Type} {closing : Item} {slack : Nat} {phrase : Parse NodeId}
variable {print : γ → List Item} {read : Arena → Nat → NodeId → γ}

theorem length_le_divided (phrases : List (List Item)) :
    phrases.length ≤ (Item.divided phrases).length + 1 := by
  induction phrases with
  | nil => simp
  | cons first others ih =>
    cases others with
    | nil => simp
    | cons second rest =>
      simp only [Item.divided, List.length_append, List.length_cons] at ih ⊢
      omega

theorem length_le_of_divided {first : γ} {others : List γ}
    (items : state.rest = Item.divided ((first :: others).map print) ++ closing :: rest) :
    others.length ≤ state.rest.length := by
  have phrases := length_le_divided ((first :: others).map print)
  rw [items, List.length_append]
  simp only [List.length_map, List.length_cons] at phrases ⊢
  omega

theorem exists_divided {first : List Item} {item : Item} {more : List Item}
    (printed : first = item :: more) (others : List (List Item)) (rest : List Item) :
    ∃ left, Item.divided (first :: others) ++ rest = item :: left := by
  subst printed
  cases others with
  | nil => exact ⟨more ++ rest, rfl⟩
  | cons second later => exact ⟨_, rfl⟩

theorem readsTo_separatedUpTo {erase : γ → γ} [Uniform phrase]
    (notComma : closing.kind ≠ .symbol .comma) (tree : γ) (trees : List γ)
    (each :
      ∀ tree' ∈ tree :: trees, ∀ (state' : ParseState) (next : Item) (others : List Item),
        state'.rest = print tree' ++ next :: others →
        state'.depth = state.depth →
        next = Item.symbol false .comma ∨ next = closing →
        ReadsTo room state' phrase (next :: others) (Arena.Finds read slack erase tree'))
    (fuel : Nat) (enough : trees.length ≤ fuel)
    (items : state.rest = Item.divided ((tree :: trees).map print) ++ closing :: rest) :
    ReadsTo room state (separatedUpTo phrase fuel) (closing :: rest)
      (Arena.FindsAll read slack erase (tree :: trees)) := by
  induction trees generalizing state tree fuel with
  | nil =>
    have first := each tree List.mem_cons_self state closing rest
      (by simpa [Item.divided] using items)
      rfl (.inr rfl)
    cases fuel with
    | zero =>
      refine .bind first fun only after passes finds => ?_
      exact .pure passes.rest (.cons finds .nil)
    | succ fuel =>
      refine .bind first fun only after passes finds => ?_
      have isClosing : after.kind ≠ .symbol .comma := by
        rw [kind_eq passes.rest]
        exact notComma
      refine .pass (.eat_nothing passes.rest isClosing) ?_
      rintro _ last further rfl
      exact .pure further.rest (.cons (finds.mono further.within) .nil)
  | cons second others ih =>
    obtain ⟨fuel, rfl⟩ : ∃ less, fuel = less + 1 :=
      Nat.exists_eq_add_one_of_ne_zero (Nat.ne_of_gt (Nat.lt_of_lt_of_le (by simp) enough))
    have split : state.rest = print tree ++ Item.symbol false .comma ::
        (Item.divided ((second :: others).map print) ++ closing :: rest) := by
      rw [items]
      simp [Item.divided]
    refine .bind (each tree List.mem_cons_self state _ _ split rfl (.inl rfl)) ?_
    intro first after passes finds
    refine .pass (.eat passes.rest rfl) ?_
    rintro _ middle further rfl
    have room : middle.depth = state.depth := further.depth.trans passes.depth
    refine .bind (ih second (fun tree' member state' next left shape same =>
      each tree' (List.mem_cons_of_mem _ member) state' next left shape (same.trans room)) fuel
      (Nat.le_of_succ_le_succ enough) further.rest) ?_
    intro ids last onward findsAll
    exact .pure onward.rest
      (.cons ((finds.mono further.within).mono onward.within) findsAll)

theorem readsTo_listed {erase : γ → γ} [Uniform phrase] {trees : List γ}
    (starts :
      ∀ tree ∈ trees, ∃ item others,
        print tree = item :: others ∧ item.kind ≠ .symbol .rightParen)
    (each :
      ∀ tree ∈ trees, ∀ (state' : ParseState) (next : Item) (others : List Item),
        state'.rest = print tree ++ next :: others →
        state'.depth = state.depth →
        next = Item.symbol false .comma ∨ next = Item.symbol false .rightParen →
        ReadsTo room state' phrase (next :: others) (Arena.Finds read slack erase tree))
    (items : state.rest = Item.divided (trees.map print) ++ Item.symbol false .rightParen :: rest) :
    ReadsTo room state
      (if state.nextIs (.symbol .rightParen) = true then pure [] else separated phrase)
      (Item.symbol false .rightParen :: rest) (Arena.FindsAll read slack erase trees) := by
  cases trees with
  | nil =>
    rw [if_pos (by simp [nextIs, kind_eq items])]
    exact .pure items .nil
  | cons first others =>
    obtain ⟨item, more, printed, isOther⟩ := starts first List.mem_cons_self
    obtain ⟨left, shape⟩ := exists_divided printed (others.map print)
      (.symbol false .rightParen :: rest)
    rw [if_neg (by simp [nextIs, kind_eq (items.trans shape), isOther])]
    exact readsTo_separatedUpTo (by simp) first others each state.rest.length
      (length_le_of_divided items) items

end Grammar

def TypeExpression.Legible (type : TypeExpression) : Prop :=
  ∀ {room levels : Nat} {state : ParseState} {rest : List Item},
    2 * type.height ≤ room →
    maxNesting ≤ levels + state.depth →
    state.rest = type.items ++ rest →
    Parse.ReadsTo room state (Grammar.ascription (.upTo levels)) rest (Arena.FindsType type)

theorem TypeExpression.itemsOfAll_eq (types : List TypeExpression) :
    TypeExpression.itemsOfAll types = types.map TypeExpression.items :=
  eq_map_of_cons rfl (fun _ _ => rfl) types

theorem TypeExpression.allPrintable_iff (types : List TypeExpression) :
    TypeExpression.AllPrintable types ↔ ∀ type ∈ types, type.Printable :=
  iff_forall_of_cons trivial (fun _ _ => Iff.rfl) types

theorem TypeExpression.height_le_heightOfAll {types : List TypeExpression} (member : type ∈ types) :
    type.height ≤ TypeExpression.heightOfAll types :=
  le_of_mem_of_cons (fun _ _ => rfl) member

theorem TypeExpression.exists_items (printable : type.Printable) :
    ∃ item others, type.items = item :: others ∧ item.kind ≠ .symbol .rightParen := by
  cases type with
  | named id name => exact ⟨_, _, rfl, by simp⟩
  | function id parameters result => exact ⟨_, _, rfl, by simp⟩
  | stray id => exact printable.elim

namespace Grammar

open Parse ParseState

variable {room levels : Nat} {state : ParseState} {rest : List Item}

theorem legible_named (id : NodeId) (name : String) : (TypeExpression.named id name).Legible := by
  intro room levels state rest _ _ items
  refine .ask (.ask ?_)
  rw [kind_eq items]
  refine .pass (.name items rfl) ?_
  rintro _ after passes rfl
  exact .make passes.rest (Arena.findsType_named _ _ _)

theorem legible_function (id : NodeId) {parameters : List TypeExpression}
    {result : TypeExpression} (printable : ∀ type ∈ parameters, type.Printable)
    (legible : ∀ type ∈ parameters, type.Legible) (legibleResult : result.Legible) :
    (TypeExpression.function id parameters result).Legible := by
  intro room levels state rest spare enough items
  rw [TypeExpression.items, TypeExpression.itemsOfAll_eq, List.cons_append,
    List.append_assoc] at items
  rw [TypeExpression.height] at spare
  refine .ask (.ask ?_)
  rw [kind_eq items]
  refine .pass (.next items) ?_
  rintro _ opened passed rfl
  refine .deeper (by omega) (passed.depth ▸ enough) ?_
  rintro level rfl deep
  have less : ∀ type ∈ parameters, 2 * type.height ≤ room - 1 := by
    intro type member
    have within := TypeExpression.height_le_heightOfAll member
    omega
  refine .ask (.branch ?_)
  refine .bind (readsTo_listed
    (fun type member => TypeExpression.exists_items (printable type member))
    (fun type member _ _ _ shape same _ =>
      legible type member (less type member) (same ▸ deep) shape)
    passed.rest) ?_
  intro ids listed ahead findsAll
  refine .pass (.expect ahead.rest rfl) fun _ closed further _ => ?_
  refine .pass (.expect further.rest rfl) fun _ pointed onward _ => ?_
  have same : pointed.depth = opened.entered.depth := by
    rw [onward.depth, further.depth, ahead.depth]
  refine .bind (legibleResult (by omega) (same ▸ deep) onward.rest) ?_
  intro resultId last past finds
  have within := further.within.trans (onward.within.trans past.within)
  exact .makeFrom past.rest fun range =>
    Arena.findsType_function range id (findsAll.mono within) finds

end Grammar

mutual

theorem TypeExpression.legible : (type : TypeExpression) → type.Printable → type.Legible
  | .named id name, _ => Grammar.legible_named id name
  | .function id parameters result, printable =>
    Grammar.legible_function id ((allPrintable_iff parameters).mp printable.1)
      (TypeExpression.legible_of_all parameters printable.1)
      (TypeExpression.legible result printable.2)
  | .stray _, printable => printable.elim

theorem TypeExpression.legible_of_all :
    (types : List TypeExpression) →
    TypeExpression.AllPrintable types →
    ∀ type ∈ types, type.Legible
  | [], _ => by simp
  | first :: rest, printable =>
    List.forall_mem_cons.mpr
      ⟨TypeExpression.legible first printable.1,
        TypeExpression.legible_of_all rest printable.2⟩

end

theorem Parameter.exists_name (printable : parameter.Printable) :
    ∃ name, parameter.name? = some name := by
  cases parameter with
  | named id name type => exact ⟨name, rfl⟩
  | stray id => exact printable.elim

theorem Parameter.exists_items (printable : parameter.Printable) :
    ∃ item others, parameter.items = item :: others ∧ item.kind ≠ .symbol .rightParen := by
  cases parameter with
  | named id name type => exact ⟨_, _, rfl, by simp⟩
  | stray id => exact printable.elim

namespace Grammar

open Parse ParseState

variable {room levels : Nat} {state : ParseState} {rest : List Item}
variable {taken : List String}

theorem readsTo_parameter {name : String} (printable : parameter.Printable)
    (isNamed : parameter.name? = some name) (isNew : name ∉ taken)
    (spare : 2 * parameter.height ≤ room) (enough : maxNesting ≤ levels + state.depth)
    (items : state.rest = parameter.items ++ rest) :
    ReadsTo room state (Grammar.parameter (.upTo levels) taken) rest fun found arena =>
      found.1 = name ∧ Arena.FindsParameter parameter found.2 arena := by
  match parameter with
  | .named id text type =>
    obtain rfl : text = name := Option.some.inj isNamed
    rw [Parameter.height] at spare
    refine .ask (.pass (.name items rfl) ?_)
    rintro _ named passed rfl
    refine .pass (.expect passed.rest rfl) fun _ divided further _ => ?_
    have same : divided.depth = state.depth := further.depth.trans passed.depth
    refine .bind (type.legible printable (by omega) (same ▸ enough) further.rest) ?_
    intro typeId typed past finds
    refine .bind (.makeFrom past.rest fun range =>
      Arena.findsParameter_named range id finds) ?_
    intro node made onward findsNode
    rw [if_neg (by simpa using isNew)]
    exact .pure onward.rest ⟨rfl, findsNode⟩
  | .stray id => exact printable.elim

theorem readsTo_parametersUpTo (parameter : Parameter) (others : List Parameter)
    (printable : ∀ entry ∈ parameter :: others, entry.Printable)
    (distinct : DistinctParameters (parameter :: others))
    (isNew : ∀ name ∈ (parameter :: others).filterMap Parameter.name?, name ∉ taken)
    (spare : 2 * Parameter.heightOfAll (parameter :: others) ≤ room)
    (enough : maxNesting ≤ levels + state.depth) (fuel : Nat) (more : others.length ≤ fuel)
    (items : state.rest =
      Item.divided ((parameter :: others).map Parameter.items) ++
        Item.symbol false .rightParen :: rest) :
    ReadsTo room state (parametersUpTo (.upTo levels) fuel taken)
      (.symbol false .rightParen :: rest) (Arena.FindsParameters (parameter :: others)) := by
  induction others generalizing state parameter fuel taken with
  | nil =>
    obtain ⟨name, isNamed⟩ := Parameter.exists_name (printable parameter List.mem_cons_self)
    rw [Parameter.heightOfAll] at spare
    have first : ReadsTo room state (Grammar.parameter (.upTo levels) taken) _ _ :=
      readsTo_parameter (printable parameter List.mem_cons_self) isNamed
        (isNew name (by simp [isNamed])) (by omega) enough items
    cases fuel with
    | zero =>
      refine .bind first fun only after passes finds => ?_
      exact .pure passes.rest (.cons finds.2 .nil)
    | succ fuel =>
      refine ReadsTo.bind first fun only after passes finds => ?_
      have isClosing : after.kind ≠ .symbol .comma := by
        rw [kind_eq passes.rest]
        simp
      refine .pass (.eat_nothing passes.rest isClosing) ?_
      rintro _ last further rfl
      exact .pure further.rest (.cons (finds.2.mono further.within) .nil)
  | cons second others ih =>
    obtain ⟨name, isNamed⟩ := Parameter.exists_name (printable parameter List.mem_cons_self)
    obtain ⟨fuel, rfl⟩ : ∃ less, fuel = less + 1 :=
      Nat.exists_eq_add_one_of_ne_zero (Nat.ne_of_gt (Nat.lt_of_lt_of_le (by simp) more))
    have split : state.rest = parameter.items ++ Item.symbol false .comma ::
        (Item.divided ((second :: others).map Parameter.items) ++
          Item.symbol false .rightParen :: rest) := by
      rw [items]
      simp [Item.divided]
    rw [Parameter.heightOfAll] at spare
    rw [DistinctParameters, List.filterMap_cons_some isNamed, List.nodup_cons] at distinct
    rw [List.filterMap_cons_some isNamed, List.forall_mem_cons] at isNew
    refine .bind (readsTo_parameter (printable parameter List.mem_cons_self) isNamed
      isNew.1 (by omega) enough split) ?_
    rintro ⟨found, first⟩ after passes ⟨rfl, finds⟩
    refine .pass (.eat passes.rest rfl) ?_
    rintro _ middle further rfl
    have room : middle.depth = state.depth := further.depth.trans passes.depth
    -- The name that was just read is taken for those that come after it.
    have isNewLater : ∀ name ∈ (second :: others).filterMap Parameter.name?,
        name ∉ found :: taken := by
      intro name member
      rw [List.mem_cons, not_or]
      exact ⟨fun same => distinct.1 (same ▸ member), isNew.2 name member⟩
    refine .bind (ih second
      (fun entry member => printable entry (List.mem_cons_of_mem _ member)) distinct.2
      isNewLater (by omega) (room ▸ enough) fuel (Nat.le_of_succ_le_succ more) further.rest) ?_
    intro ids last onward findsAll
    exact .pure onward.rest
      (.cons ((finds.mono further.within).mono onward.within) findsAll)

theorem readsTo_parameters {parameters : List Parameter} {result : Option TypeExpression}
    (printable : PrintableSignature parameters result)
    (spare : 2 * signatureHeight parameters result ≤ room)
    (enough : maxNesting ≤ levels + state.depth)
    (items : state.rest = Parameter.listItems parameters ++ rest) :
    ReadsTo room state (Grammar.parameters (.upTo levels)) rest
      (Arena.FindsParameters parameters) := by
  rw [Parameter.listItems, List.cons_append, List.append_assoc] at items
  rw [signatureHeight] at spare
  refine .pass (.expect items rfl) fun _ opened passed _ => ?_
  have listed : ReadsTo room opened
      (if opened.nextIs (.symbol .rightParen) = true then pure [] else do
        let left ← ask (·.rest.length)
        parametersUpTo (.upTo levels) left [])
      (.symbol false .rightParen :: rest) (Arena.FindsParameters parameters) := by
    cases parameters with
    | nil =>
      rw [if_pos (by simp [nextIs, kind_eq passed.rest])]
      exact ReadsTo.pure passed.rest .nil
    | cons first others =>
      obtain ⟨item, more, printed, isOther⟩ :=
        Parameter.exists_items (printable.each first List.mem_cons_self)
      obtain ⟨left, shape⟩ := exists_divided printed (others.map Parameter.items)
        (.symbol false .rightParen :: rest)
      rw [if_neg (by simp [nextIs, kind_eq (passed.rest.trans shape), isOther])]
      exact .ask (readsTo_parametersUpTo first others printable.each printable.distinct
        (by simp) (by omega) (passed.depth ▸ enough) _ (length_le_of_divided passed.rest)
        passed.rest)
  refine .ask (.branch (.bind listed fun ids after further findsAll => ?_))
  refine .pass (.expect further.rest rfl) fun _ closed onward _ => ?_
  exact .pure onward.rest (findsAll.mono onward.within)

theorem readsTo_ascription {type : Option TypeExpression}
    (printable : ∀ written ∈ type, written.Printable)
    (spare : 2 * TypeExpression.ascriptionHeight type ≤ room)
    (enough : maxNesting ≤ levels + state.depth)
    (following : (state.following rest).kind ≠ .symbol .colon)
    (items : state.rest = TypeExpression.ascriptionItems type ++ rest) :
    ReadsTo room state (optionalAscription (.upTo levels)) rest (Arena.FindsAscription type) := by
  cases type with
  | none =>
    refine .pass (.eat_nothing items (kind_of_rest items ▸ following)) ?_
    rintro _ after passes rfl
    exact .pure passes.rest ⟨none, rfl, .none⟩
  | some written =>
    refine .pass (.eat items rfl) ?_
    rintro _ after passes rfl
    refine .bind (written.legible (printable written rfl) spare (passes.depth ▸ enough)
      passes.rest) ?_
    rintro id last further ⟨found, same, shows⟩
    exact .pure further.rest ⟨some found, congrArg some same, .some shows⟩

end Grammar

end Toolshed
