import Toolshed.Proofs.Grammar.LegibleStatement
import Toolshed.Proofs.Grammar.SourceFile

namespace Toolshed

/-!
# Printed files are read

The tokens of a printed file are its items, and all of them count for the grammar.
Imports and declarations are read line by line to the end.
-/

namespace Item

variable {items : List Item}

def Count (items : List Item) : Prop :=
  ∀ item ∈ items, item.token.isItem = true

@[simp]
theorem count_nil : Count [] := by
  simp [Count]

@[simp]
theorem count_cons {item : Item} :
    Count (item :: items) ↔ item.token.isItem = true ∧ Count items := by
  simp [Count]

@[simp]
theorem count_append {others : List Item} :
    Count (items ++ others) ↔ Count items ∧ Count others := by
  simp only [Count, List.mem_append, or_imp, forall_and]

@[simp]
theorem isItem_word (fresh : Bool) (keyword : Keyword) :
    (word fresh keyword).token.isItem = true :=
  rfl

@[simp]
theorem isItem_symbol (fresh : Bool) (sign : Symbol) :
    (symbol fresh sign).token.isItem = true :=
  rfl

@[simp]
theorem isItem_name (fresh : Bool) (text : String) : (name fresh text).token.isItem = true :=
  rfl

@[simp]
theorem isItem_number (fresh : Bool) (digits : String) :
    (number fresh digits).token.isItem = true :=
  rfl

@[simp]
theorem isItem_string (fresh : Bool) (text : String) : (string fresh text).token.isItem = true :=
  rfl

theorem count_divided {phrases : List (List Item)} (each : ∀ phrase ∈ phrases, Count phrase) :
    Count (divided phrases) := by
  induction phrases with
  | nil => simp [divided]
  | cons first others ih =>
    have later := ih fun phrase member =>
      each phrase (List.mem_cons_of_mem _ member)
    cases others with
    | nil => exact each first List.mem_cons_self
    | cons second rest => simpa [divided] using ⟨each first List.mem_cons_self, later⟩

theorem count_enclosed {compound fresh : Bool} {phrase : Bool → List Item}
    (count : ∀ fresh, Count (phrase fresh)) : Count (enclosed compound fresh phrase) := by
  cases compound <;> simp [enclosed, count]

theorem significant_tokens (count : Count items) :
    significant false (items.flatMap tokens ++ [.finish .origin]) = (items, false) := by
  induction items with
  | nil => rfl
  | cons item rest ih =>
    rw [count_cons] at count
    have read : ∀ broken,
        significant broken (item.token :: (rest.flatMap tokens ++ [.finish .origin])) =
          (⟨item.token, broken⟩ :: rest, false) := by
      intro broken
      have isItem := count.1
      cases kind : item.token.kind with
      | whitespace | comment | unrecognised | finish => simp [Token.isItem, kind] at isItem
      | _ => simp [significant, kind, ih count.2]
    obtain ⟨token, fresh⟩ := item
    cases fresh with
    | false => exact read false
    | true =>
      have broken := read true
      rwa [List.flatMap_cons]

end Item

mutual

theorem TypeExpression.count_items : (type : TypeExpression) → Item.Count type.items
  | .named _ _ => by simp [TypeExpression.items]
  | .function _ parameters result => by
      simp [TypeExpression.items, TypeExpression.count_items result,
        Item.count_divided (TypeExpression.count_itemsOfAll parameters)]
  | .stray _ => by simp [TypeExpression.items]

theorem TypeExpression.count_itemsOfAll :
    (types : List TypeExpression) →
    ∀ phrase ∈ TypeExpression.itemsOfAll types, Item.Count phrase
  | [] => by simp [TypeExpression.itemsOfAll]
  | first :: rest => by
      rw [TypeExpression.itemsOfAll, List.forall_mem_cons]
      exact ⟨TypeExpression.count_items first, TypeExpression.count_itemsOfAll rest⟩

end

theorem TypeExpression.count_ascriptionItems (type : Option TypeExpression) :
    Item.Count (TypeExpression.ascriptionItems type) := by
  cases type <;> simp [TypeExpression.ascriptionItems, TypeExpression.count_items]

theorem Parameter.count_listItems (parameters : List Parameter) :
    Item.Count (Parameter.listItems parameters) := by
  have each : ∀ phrase ∈ parameters.map Parameter.items, Item.Count phrase := by
    refine List.forall_mem_map.mpr fun parameter _ => ?_
    cases parameter <;> simp [Parameter.items, TypeExpression.count_items]
  simp [Parameter.listItems, Item.count_divided each]

section

variable (digits : Double → String)

mutual

theorem Expression.count_items :
    (expression : Expression) → (fresh : Bool) → Item.Count (expression.items digits fresh)
  | .number _ _, _ | .string _ _, _ | .boolean _ _, _ | .unit _, _ | .identifier _ _, _ =>
    by simp [Expression.items]
  | .binary _ _ left right, _ => by
      simp [Expression.items, Item.count_enclosed (Expression.count_items left),
        Item.count_enclosed (Expression.count_items right)]
  | .unary _ _ operand, _ => by
      simp [Expression.items, Item.count_enclosed (Expression.count_items operand)]
  | .call _ callee arguments, _ => by
      simp [Expression.items, Item.count_enclosed (Expression.count_items callee),
        Item.count_divided (Expression.count_itemsOfAll arguments)]
  | .member _ object _, _ => by
      simp [Expression.items, Item.count_enclosed (Expression.count_items object)]
  | .lambda _ parameters result body, _ => by
      simp [Expression.items, Parameter.count_listItems, TypeExpression.count_ascriptionItems,
        LambdaBody.count_items body]
  | .stray _, _ => by simp [Expression.items]

theorem Expression.count_itemsOfAll :
    (trees : List Expression) → ∀ phrase ∈ Expression.itemsOfAll digits trees, Item.Count phrase
  | [] => by simp [Expression.itemsOfAll]
  | first :: rest => by
      rw [Expression.itemsOfAll, List.forall_mem_cons]
      exact ⟨Expression.count_items first false, Expression.count_itemsOfAll rest⟩

theorem LambdaBody.count_items :
    (body : LambdaBody) → Item.Count (body.items digits)
  | .expression body => by simp [LambdaBody.items, Expression.count_items body]
  | .block body => by simp [LambdaBody.items, Block.count_items body]

theorem Block.count_items :
    (block : Block) → Item.Count (block.items digits)
  | .statements _ statements => by
      simp [Block.items, Statement.count_itemsOfAll statements]
  | .stray _ => by simp [Block.items]

theorem Statement.count_itemsOfAll :
    (trees : List Statement) → Item.Count (Statement.itemsOfAll digits trees)
  | [] => by simp [Statement.itemsOfAll]
  | first :: rest => by
      simp [Statement.itemsOfAll, Statement.count_items first,
        Statement.count_itemsOfAll rest]

theorem Statement.count_items :
    (statement : Statement) → (fresh : Bool) → Item.Count (statement.items digits fresh)
  | .declaration declared, fresh => by
      simp [Statement.items, Declaration.count_items declared fresh]
  | .expression _ value, fresh => by simp [Statement.items, Expression.count_items value]
  | .returnNothing _, _ => by simp [Statement.items]
  | .returnValue _ value, _ => by simp [Statement.items, Expression.count_items value]
  | .conditional _ condition thenBlock otherwise, _ => by
      simp [Statement.items, Expression.count_items condition,
        Block.count_items thenBlock, ElseBranch.count_items otherwise]
  | .loop _ condition body, _ => by
      simp [Statement.items, Expression.count_items condition,
        Block.count_items body]
  | .assignment _ _ value, _ => by simp [Statement.items, Expression.count_items value]
  | .stray _, _ => by simp [Statement.items]

theorem ElseBranch.count_items :
    (otherwise : ElseBranch) → Item.Count (otherwise.items digits)
  | .nothing => by simp [ElseBranch.items]
  | .block body => by simp [ElseBranch.items, Block.count_items body]
  | .statement nested => by simp [ElseBranch.items, Statement.count_items nested]

theorem Declaration.count_items :
    (declared : Declaration) → (fresh : Bool) → Item.Count (declared.items digits fresh)
  | .value _ _ _ type initial, _ => by
      simp [Declaration.items, TypeExpression.count_ascriptionItems,
        Expression.count_items initial]
  | .function _ _ parameters result body, _ => by
      simp [Declaration.items, Parameter.count_listItems, TypeExpression.count_ascriptionItems,
        Block.count_items body]
  | .classType _ _ parameters members, _ => by
      simp [Declaration.items, Parameter.count_listItems,
        Declaration.count_itemsOfAll members]
  | .stray _, _ => by simp [Declaration.items]

theorem Declaration.count_itemsOfAll :
    (trees : List Declaration) → Item.Count (Declaration.itemsOfAll digits trees)
  | [] => by simp [Declaration.itemsOfAll]
  | first :: rest => by
      simp [Declaration.itemsOfAll, Declaration.count_items first,
        Declaration.count_itemsOfAll rest]

end

end

namespace Grammar

open Parse ParseState

variable {room levels : Nat} {state : ParseState} {rest : List Item}
variable {digits : Double → String}
variable {entry : Import} {declared : Declaration} {imports : List Import}
variable {declarations : List Declaration} {contents before : Contents} {arena : Arena}
variable {file : SourceFile}

theorem readsTo_pathSegmentsUpTo (segments : List String) (fuel : Nat)
    (enough : segments.length ≤ fuel) (following : (state.following rest).kind ≠ .symbol .dot)
    (items : state.rest = ModulePath.segmentItems segments ++ rest) :
    ReadsTo room state (pathSegmentsUpTo fuel) rest fun found _ => found = segments := by
  induction segments generalizing state fuel with
  | nil =>
    cases fuel with
    | zero => exact .pure items rfl
    | succ fuel =>
      refine .pass (.eat_nothing items (kind_of_rest items ▸ following)) ?_
      rintro _ after passes rfl
      exact .pure passes.rest rfl
  | cons segment others ih =>
    obtain ⟨fuel, rfl⟩ : ∃ less, fuel = less + 1 :=
      Nat.exists_eq_add_one_of_ne_zero (Nat.ne_of_gt (Nat.lt_of_lt_of_le (by simp) enough))
    refine .pass (.eat items rfl) ?_
    rintro _ dotted passed rfl
    refine .pass (.name passed.rest rfl) ?_
    rintro _ named further rfl
    refine .bind (ih fuel (Nat.le_of_succ_le_succ enough) ?_
      further.rest) ?_
    · rwa [further.following_eq, passed.following_eq]
    rintro _ last onward rfl
    exact .pure onward.rest rfl

theorem length_le_segmentItems (segments : List String) :
    segments.length ≤ (ModulePath.segmentItems segments).length := by
  induction segments with
  | nil => simp
  | cons segment others ih =>
    rw [ModulePath.segmentItems, List.length_cons, List.length_cons, List.length_cons]
    omega

abbrev FindsImport :=
  Arena.Finds (fun arena _ id => arena.importAt? id) 0 (Option.map Import.unnumbered)

theorem readsTo_importDeclaration (printable : entry.path.segments ≠ [])
    (ends : (state.following rest).EndsLine) (notDot : (state.following rest).kind ≠ .symbol .dot)
    (notAs : (state.following rest).kind ≠ .keyword .asWord)
    (items : state.rest = entry.items ++ rest) :
    ReadsTo room state importDeclaration rest (FindsImport (some entry)) := by
  obtain ⟨id, ⟨segments⟩, chosenName⟩ := entry
  cases segments with
  | nil => exact (printable rfl).elim
  | cons first others =>
    rw [Import.items, List.cons_append, List.append_assoc] at items
    refine .ask (.pass (.next items) ?_)
    rintro _ opened passed rfl
    refine .pass (.name passed.rest rfl) ?_
    rintro _ named further rfl
    have endsHere : (named.following rest).EndsLine := by
      rwa [further.following_eq, passed.following_eq]
    have isDot : (named.following (Import.chosenItems chosenName ++ rest)).kind ≠
        .symbol .dot := by
      cases chosenName with
      | none => rwa [Import.chosenItems, List.nil_append, further.following_eq, passed.following_eq]
      | some chosen => simp [ParseState.following, Import.chosenItems]
    have enough : others.length ≤ named.rest.length := by
      have segments := length_le_segmentItems others
      rw [further.rest]
      exact Nat.le_trans segments (by simp)
    refine .ask ?_
    refine .bind (readsTo_pathSegmentsUpTo others _ enough isDot further.rest) ?_
    rintro _ pathed past rfl
    cases chosenName with
    | none =>
      have notChosen : (pathed.following rest).kind ≠ .keyword .asWord := by
        rwa [past.following_eq, further.following_eq, passed.following_eq]
      refine .pass (.eat_nothing past.rest (kind_of_rest past.rest ▸ notChosen)) ?_
      rintro _ looked onward rfl
      refine .step rfl (.refl looked) (.ask ?_)
      refine .pass (gets_terminator ?_ onward.rest) ?_
      · rwa [onward.following_eq, past.following_eq]
      intro _ terminated final _
      exact .make final.rest (Arena.Shows.finds (Arena.showsImport _ _ _) rfl)
    | some chosen =>
      refine .pass (.eat past.rest rfl) ?_
      rintro _ looked onward rfl
      refine .pass (.name onward.rest rfl) ?_
      rintro _ renamed ahead rfl
      refine .step rfl (.refl renamed) (.ask ?_)
      refine .pass (gets_terminator ?_ ahead.rest) ?_
      · rwa [ahead.following_eq, onward.following_eq, past.following_eq]
      intro _ terminated final _
      exact .make final.rest (Arena.Shows.finds (Arena.showsImport _ _ _) rfl)

def TopLegible (digits : Double → String) (declared : Declaration) : Prop :=
  ∀ {room levels : Nat} {state : ParseState} {rest : List Item},
    2 * declared.height ≤ room →
    maxNesting ≤ levels + state.depth →
    (state.following rest).EndsLine →
    state.rest = declared.items digits true ++ rest →
    ∀ before,
      Parse.ReadsTo room state (topLevel (.upTo levels) before) rest fun after arena =>
        ∃ id,
          after = { before with declarations := before.declarations ++ [id] } ∧
            Arena.FindsDeclaration declared id arena

theorem exists_declaration_items (printable : declared.TopPrintable digits) :
    ∃ item others, declared.items digits true = item :: others ∧ StartsLine item := by
  match declared with
  | .value _ mutable _ _ _ => exact ⟨_, _, rfl, rfl, by cases mutable <;> rfl⟩
  | .function _ _ _ _ _ => exact ⟨_, _, rfl, rfl, rfl⟩
  | .classType _ _ _ _ => exact ⟨_, _, rfl, rfl, rfl⟩
  | .stray _ => exact printable.elim

theorem topPrintable_of_printable (printable : declared.Printable digits) :
    declared.TopPrintable digits := by
  cases declared with
  | value => exact printable
  | function => exact printable
  | classType => exact printable.elim
  | stray => exact printable.elim

theorem readsTo_classMember {member : Declaration} (printable : member.Printable digits)
    (spare : 2 * member.height ≤ room) (enough : maxNesting ≤ levels + state.depth)
    (ends : (state.following rest).EndsLine)
    (items : state.rest = member.items digits true ++ rest) :
    ReadsTo room state (classMember (.upTo (levels + 1))) rest (Arena.FindsDeclaration member) := by
  have reads := (Declaration.legible member printable).1 spare enough ends items
  refine .ask ?_
  match member with
  | .value _ mutable _ _ _ =>
    rw [kind_eq (items.trans rfl)]
    cases mutable <;> exact reads
  | .function .. =>
    rw [kind_eq (items.trans rfl)]
    exact reads
  | .classType .. => exact printable.elim
  | .stray _ => exact printable.elim

theorem readsTo_classDeclaration (id : NodeId) {name : String} {parameters : List Parameter}
    {members : List Declaration} (printable : PrintableSignature parameters none)
    (printableMembers : ∀ member ∈ members, member.Printable digits)
    (spare : 2 * (Declaration.classType id name parameters members).height ≤ room)
    (enough : maxNesting ≤ levels + state.depth)
    (items : state.rest =
      (Declaration.classType id name parameters members).items digits true ++ rest) :
    ReadsTo room state (classDeclaration (.upTo levels)) rest
      (Arena.FindsDeclaration (.classType id name parameters members)) := by
  rw [Declaration.items, Declaration.itemsOfAll_eq, List.cons_append, List.cons_append,
    List.append_assoc, List.cons_append, List.append_assoc] at items
  rw [Declaration.height] at spare
  have less : ∀ member ∈ members, 2 * member.height ≤ room - 1 := by
    intro member isMember
    have within := Declaration.height_le_heightOfAll isMember
    omega
  refine .ask (.pass (.next items) ?_)
  rintro _ opened passed rfl
  refine .pass (.name passed.rest rfl) ?_
  rintro _ named further rfl
  have deep : maxNesting ≤ levels + named.depth := (further.depth.trans passed.depth) ▸ enough
  have narrow : 2 * signatureHeight parameters none ≤ room := by
    rw [signatureHeight, TypeExpression.ascriptionHeight]
    omega
  refine @ReadsTo.bind _ _ _ _ _ _ _ _ _ _ (fun ids => ?_)
    (readsTo_parameters printable narrow deep further.rest) ?_
  · refine @Keeps.bind _ _ _ _ _ fun isOpen => ?_
    split <;> infer_instance
  intro ids listed past findsParameters
  refine .pass (.eat past.rest rfl) ?_
  rintro _ entered onward rfl
  have inside : ReadsTo room entered (deeper (statements (classMember (.upTo levels))))
      (.symbol true .rightBrace :: rest)
      (Arena.FindsAll Arena.declarationAt 1 Declaration.unnumbered members) := by
    refine .deeper (by omega) ((onward.depth.trans past.depth) ▸ deep) ?_
    rintro level rfl room
    exact readsTo_statements
      (fun member isMember =>
        exists_declaration_items (topPrintable_of_printable (printableMembers member isMember)))
      (fun member isMember state' others shape same ends =>
        readsTo_classMember (printableMembers member isMember) (less member isMember)
          (same ▸ room) ends shape)
      onward.rest
  dsimp only [if_true]
  rw [deeper_statements]
  refine .bind inside fun memberIds closing ahead findsMembers => ?_
  refine .pass (.expect ahead.rest rfl) fun _ closed final _ => ?_
  refine .step rfl (.refl closed) ?_
  have within := onward.within.trans (ahead.within.trans final.within)
  exact .makeFrom final.rest fun range =>
    Arena.findsDeclaration_classType range id (findsParameters.mono within)
      (findsMembers.mono final.within)

theorem topLegible_of_printable (printable : declared.TopPrintable digits) :
    TopLegible digits declared := by
  intro room levels state rest spare enough ends items before
  refine .ask ?_
  match declared with
  | .value id mutable name type initial =>
    have reads := (Declaration.legible (.value id mutable name type initial) printable).1
      spare enough ends items
    rw [kind_eq (items.trans rfl)]
    cases mutable
    all_goals
      refine .bind reads fun id after passes finds => ?_
      exact .pure passes.rest ⟨id, rfl, finds⟩
  | .function id name parameters result body =>
    have reads := (Declaration.legible (.function id name parameters result body) printable).1
      spare enough ends items
    rw [kind_eq (items.trans rfl)]
    refine .bind reads fun id after passes finds => ?_
    exact .pure passes.rest ⟨id, rfl, finds⟩
  | .classType id name parameters members =>
    have reads := readsTo_classDeclaration id printable.1 printable.2 spare enough items
    rw [kind_eq (items.trans rfl)]
    refine .bind reads fun id after passes finds => ?_
    exact .pure passes.rest ⟨id, rfl, finds⟩
  | .stray _ => exact printable.elim

structure Contents.Finds
    (imports : List Import)
    (declarations : List Declaration)
    (contents : Contents)
    (arena : Arena) : Prop where
  imports :
    Arena.FindsAll (fun arena _ id => arena.importAt? id) 0 (Option.map Import.unnumbered)
      (imports.map some) contents.imports arena
  declarations :
    Arena.FindsAll Arena.declarationAt 1 Declaration.unnumbered declarations
      contents.declarations arena

theorem Contents.Finds.mono {larger : Arena} (finds : contents.Finds imports declarations arena)
    (within : arena.Within larger) : contents.Finds imports declarations larger :=
  ⟨finds.imports.mono within, finds.declarations.mono within⟩

theorem endsLine_finish (isFinish : state.finish.kind = .finish) :
    (state.following []).EndsLine := by
  have kind : (state.following []).kind = .finish := isFinish
  exact ⟨.inr kind, by simp [kind], by simp [kind], by simp [kind]⟩

theorem readsTo_declarations (printable : ∀ declared ∈ declarations, declared.TopPrintable digits)
    (spare : 2 * Declaration.heightOfAll declarations ≤ room)
    (enough : maxNesting ≤ levels + state.depth) (isFinish : state.finish.kind = .finish)
    (fuel : Nat) (more : declarations.length ≤ fuel) {done : List Declaration}
    (finds : before.Finds imports done state.arena)
    (items : state.rest = declarations.flatMap (·.items digits true)) :
    ReadsTo room state (contentsUpTo (.upTo levels) fuel before) []
      (Contents.Finds imports (done ++ declarations)) := by
  induction declarations generalizing state fuel before done with
  | nil =>
    rw [List.append_nil]
    cases fuel with
    | zero => exact .pure items finds
    | succ fuel =>
      have atEnd : state.atFinish = true := by
        simp [atFinish, kind_of_rest items, ParseState.following, isFinish]
      refine .ask ?_
      rw [if_pos atEnd]
      exact .pure items finds
  | cons first others ih =>
    obtain ⟨fuel, rfl⟩ : ∃ less, fuel = less + 1 :=
      Nat.exists_eq_add_one_of_ne_zero (Nat.ne_of_gt (Nat.lt_of_lt_of_le (by simp) more))
    have starts := fun declared member =>
      exists_declaration_items (printable declared member)
    obtain ⟨item, left, printed, startsFirst⟩ := starts first List.mem_cons_self
    rw [Declaration.heightOfAll] at spare
    have notFinish : item.kind ≠ .finish := startsFirst.kind_ne rfl
    have next := items.trans (congrArg (· ++ _) printed)
    have ends : (state.following (others.flatMap (·.items digits true))).EndsLine := by
      rw [← List.append_nil (others.flatMap _)]
      exact following_lines
        (fun declared member => starts declared (List.mem_cons_of_mem _ member))
        (fun _ starts => starts.endsLine) (endsLine_finish isFinish)
    refine .ask ?_
    rw [if_neg (by simp [atFinish, kind_eq next, notFinish])]
    refine .ask ?_
    refine .attempt (topLegible_of_printable (printable first List.mem_cons_self)
      (by omega) enough ends items before) ?_
    rintro _ after passes ⟨id, rfl, findsFirst⟩
    rw [List.append_cons done first others]
    refine ih (fun declared member =>
      printable declared (List.mem_cons_of_mem _ member)) (by omega) (passes.depth ▸ enough)
      (passes.finish ▸ isFinish) fuel (Nat.le_of_succ_le_succ more) ?_ passes.rest
    have kept := finds.mono passes.within
    exact ⟨kept.imports, kept.declarations.concat findsFirst⟩

theorem readsTo_topLevel_import (undeclared : before.declarations = [])
    (printable : entry.path.segments ≠ []) (ends : (state.following rest).EndsLine)
    (notDot : (state.following rest).kind ≠ .symbol .dot)
    (notAs : (state.following rest).kind ≠ .keyword .asWord)
    (items : state.rest = entry.items ++ rest) :
    ReadsTo room state (topLevel (.upTo levels) before) rest fun found arena =>
      ∃ id,
        found = { before with imports := before.imports ++ [id] } ∧
          FindsImport (some entry) id arena := by
  refine .ask ?_
  rw [kind_eq (items.trans rfl)]
  refine .bind (readsTo_importDeclaration printable ends notDot notAs items) ?_
  intro id read passes finds
  rw [if_pos (by rw [undeclared]; rfl)]
  exact .pure passes.rest ⟨id, rfl, finds⟩

theorem readsTo_contents (printableImports : ∀ entry ∈ imports, entry.path.segments ≠ [])
    (printable : ∀ declared ∈ declarations, declared.TopPrintable digits)
    (spare : 2 * Declaration.heightOfAll declarations ≤ room)
    (enough : maxNesting ≤ levels + state.depth) (isFinish : state.finish.kind = .finish)
    (fuel : Nat) (more : imports.length + declarations.length ≤ fuel) {done : List Import}
    (undeclared : before.declarations = []) (finds : before.Finds done [] state.arena)
    (items : state.rest =
      imports.flatMap Import.items ++ declarations.flatMap (·.items digits true)) :
    ReadsTo room state (contentsUpTo (.upTo levels) fuel before) []
      (Contents.Finds (done ++ imports) declarations) := by
  have startsDeclared := fun declared member =>
    exists_declaration_items (printable declared member)
  induction imports generalizing state fuel before done with
  | nil =>
    rw [List.append_nil]
    exact readsTo_declarations printable spare enough isFinish fuel
      (by simpa using more) finds items
  | cons first others ih =>
    obtain ⟨fuel, rfl⟩ : ∃ less, fuel = less + 1 :=
      Nat.exists_eq_add_one_of_ne_zero (by simp at more; omega)
    rw [List.flatMap_cons, List.append_assoc] at items
    -- After an import stands another one, a declaration or the end.
    have after : ∀ suits : Item → Prop, (∀ item, StartsLine item → suits item) →
        suits (state.following []) →
        suits (state.following
          (others.flatMap Import.items ++ declarations.flatMap (·.items digits true))) := by
      intro suits line last
      refine following_lines (fun entry _ => ⟨_, _, rfl, rfl, rfl⟩) line ?_
      rw [← List.append_nil (declarations.flatMap _)]
      exact following_lines startsDeclared line last
    have finishKind : (state.following []).kind = .finish := isFinish
    have ends := after Item.EndsLine (fun _ starts => starts.endsLine) (endsLine_finish isFinish)
    have notDot := after (·.kind ≠ .symbol .dot) (fun _ starts => starts.kind_ne rfl)
      (by simp [finishKind])
    have notAs := after (·.kind ≠ .keyword .asWord) (fun _ starts => starts.kind_ne rfl)
      (by simp [finishKind])
    refine .ask ?_
    rw [if_neg (by simp [atFinish, kind_eq (items.trans rfl)])]
    refine .ask (.attempt (readsTo_topLevel_import undeclared
      (printableImports first List.mem_cons_self) ends notDot notAs items) ?_)
    rintro _ read passes ⟨id, rfl, findsFirst⟩
    rw [List.append_cons done first others]
    refine ih (fun entry member =>
      printableImports entry (List.mem_cons_of_mem _ member)) (passes.depth ▸ enough)
      (passes.finish ▸ isFinish) fuel (by simp at more; omega) undeclared ?_ passes.rest
    have kept := finds.mono passes.within
    exact ⟨by rw [List.map_append]; exact kept.imports.concat findsFirst, kept.declarations⟩

theorem count_importItems (entry : Import) : Item.Count entry.items := by
  have segments : ∀ segments, Item.Count (ModulePath.segmentItems segments) := by
    intro segments
    induction segments with
    | nil => simp [ModulePath.segmentItems]
    | cons segment others ih =>
      simp [ModulePath.segmentItems, ih]
  obtain ⟨id, ⟨names⟩, chosenName⟩ := entry
  cases names <;> cases chosenName <;>
    simp [Import.items, ModulePath.items, Import.chosenItems, segments]

theorem count_fileItems (file : SourceFile) : Item.Count (file.items digits) := by
  rw [SourceFile.items, Item.count_append]
  refine ⟨fun item member => ?_, Declaration.count_itemsOfAll digits _⟩
  obtain ⟨entry, _, inside⟩ := List.mem_flatMap.mp member
  exact count_importItems entry item inside

theorem exists_imports {ids : List NodeId}
    (finds : Arena.FindsAll (fun arena _ id => arena.importAt? id) 0
      (Option.map Import.unnumbered) (imports.map some) ids arena) :
    ∃ found : List Import,
      found.map Import.unnumbered = imports.map Import.unnumbered ∧
        List.Forall₂ arena.ShowsImport ids found := by
  obtain ⟨answers, same, shows⟩ := finds
  induction shows generalizing imports with
  | nil =>
    cases imports with
    | nil => exact ⟨[], rfl, .nil⟩
    | cons first rest => cases same
  | @cons id answer ids answers first rest ih =>
    cases imports with
    | nil => cases same
    | cons entry entries =>
      obtain ⟨sameFirst, sameRest⟩ := List.cons.inj same
      obtain ⟨found, rfl⟩ : ∃ found, answer = some found := by
        cases answer with
        | none => cases sameFirst
        | some found => exact ⟨found, rfl⟩
      obtain ⟨others, sameOthers, showsOthers⟩ := ih sameRest
      refine ⟨found :: others, ?_, .cons first showsOthers⟩
      rw [List.map_cons, List.map_cons, sameOthers, Option.some.inj sameFirst]

theorem findsFile (range : Range) (finds : contents.Finds file.imports file.declarations arena) :
    Arena.Finds Arena.fileAt 0 SourceFile.unnumbered file arena.next
      (arena.add (.sourceFile contents.imports contents.declarations) range) := by
  obtain ⟨entries, sameEntries, showsEntries⟩ := exists_imports finds.imports
  obtain ⟨declared, sameDeclared, shows⟩ := finds.declarations
  refine Arena.Shows.finds (Arena.showsFile range showsEntries shows) ?_
  simp only [SourceFile.unnumbered, Declaration.allUnnumbered_eq, sameEntries, sameDeclared]

theorem readsTo_sourceFile (printable : file.Printable digits) (spare : 2 * file.height ≤ room)
    (enough : maxNesting ≤ levels + state.depth) (isFinish : state.finish.kind = .finish)
    (items : state.rest = file.items digits) :
    ReadsTo room state (sourceFile (.upTo levels)) []
      (Arena.Finds Arena.fileAt 0 SourceFile.unnumbered file) := by
  rw [SourceFile.items, Declaration.itemsOfAll_eq] at items
  rw [SourceFile.height] at spare
  have startsDeclared := fun declared member =>
    exists_declaration_items (printable.declarations declared member)
  have startsImport : ∀ entry ∈ file.imports, ∃ item others,
      Import.items entry = item :: others ∧ StartsLine item :=
    fun entry _ => ⟨_, _, rfl, rfl, rfl⟩
  have more : file.imports.length + file.declarations.length ≤ state.rest.length := by
    have imports := length_le_flatMap startsImport
    have declarations := length_le_flatMap startsDeclared
    rw [items, List.length_append]
    omega
  refine .ask (.ask ?_)
  have nothing : Contents.Finds [] [] ⟨[], []⟩ state.arena := ⟨.nil, .nil⟩
  have contents : ReadsTo room state (contentsUpTo (.upTo levels) _ ⟨[], []⟩) [] _ :=
    readsTo_contents printable.imports printable.declarations (by omega) enough isFinish _ more rfl
      nothing items
  refine .bind contents ?_
  intro found after passes finds
  have made : ∀ range, ReadsTo room after
      (make (.sourceFile found.imports found.declarations) range) []
      (Arena.Finds Arena.fileAt 0 SourceFile.unnumbered file) :=
    fun range => .make passes.rest (findsFile range finds)
  split
  · exact .ask (made _)
  · exact .ask (made _)

end Grammar

/-- Tokens are read as a file without a fault, up to the numbers of its nodes. -/
def SyntaxTree.ReadsAs (tokens : List Token) (file : SourceFile) : Prop :=
  (SyntaxTree.parse tokens).diagnostics = [] ∧
    (SyntaxTree.parse tokens).tree.sourceFile.unnumbered = file.unnumbered

/--
Reading undoes printing. The tokens of a printed file are read as the file, up to
the numbers of its nodes, or a phrase in it is reported as nested too deeply. A
file of height 50 is never too deep.
-/
theorem SyntaxTree.parse_tokens
    (digits : Double → String)
    (file : SourceFile)
    (printable : file.Printable digits) :
    (SyntaxTree.ReadsAs (file.tokens digits) file ∨
        ∃ place, ⟨.tooDeep, place⟩ ∈ (SyntaxTree.parse (file.tokens digits)).diagnostics) ∧
      (file.height ≤ 50 → SyntaxTree.ReadsAs (file.tokens digits) file) := by
  have items : (ParseState.start (file.tokens digits)).rest = file.items digits := by
    rw [ParseState.start, SourceFile.tokens,
      Item.significant_tokens (Grammar.count_fileItems file)]
  have reads : Parse.ReadsTo (2 * file.height) (.start (file.tokens digits))
      (Grammar.sourceFile (.upTo maxNesting)) [] _ :=
    Grammar.readsTo_sourceFile printable (Nat.le_refl _) (Nat.le_add_right _ _) rfl items
  have small : ∀ {after : ParseState}, file.height ≤ 50 →
      ¬(ParseState.start (file.tokens digits)).Overflows (2 * file.height) after := by
    intro after low overflows
    have deep : maxNesting < 0 + 2 * file.height := overflows.deep
    exact absurd deep (by rw [maxNesting]; omega)
  rcases reads with overflows | ⟨root, answered, passes, found, same, shows⟩
  · exact ⟨.inr overflows.reported, fun low => (small low overflows).elim⟩
  · have whole : SyntaxTree.ReadsAs (file.tokens digits) file := by
      refine ⟨passes.diagnostics, ?_⟩
      have isFound := shows.reads _ _ (.refl _) (Nat.le_refl _)
      rw [← same, ← isFound]
      simp only [SyntaxTree.parse, answered]
      rfl
    exact ⟨.inl whole, fun _ => whole⟩

def Double.two : Double :=
  (Double.ofText? "2").getD .zero

/-- A file with an import, a class and a function with branches and a lambda. -/
def SourceFile.sample : SourceFile :=
  ⟨[⟨0, ⟨["lib", "text"]⟩, some "t"⟩],
    [.classType 1 "P" [.named 2 "x" (.named 3 "Number")]
        [.value 4 true "d" none (.binary 5 .multiply (.identifier 6 "x") (.number 7 Double.two))],
      .function 8 "f" [.named 9 "n" (.named 10 "Number")] (some (.named 11 "Number"))
        (.statements 12
          [.conditional 13 (.binary 14 .less (.identifier 15 "n") (.number 16 Double.two))
              (.statements 17 [.returnValue 18 (.unary 19 .negate (.identifier 20 "n"))])
              (.statement (.conditional 21 (.boolean 22 true) (.statements 23 []) .nothing)),
            .declaration (.value 24 false "g" (some (.function 25 [] (.named 26 "Unit")))
              (.lambda 27 [] none (.expression (.unit 28)))),
            .expression 29 (.call 30 (.identifier 31 "g") []),
            .returnValue 32 (.member 33 (.call 34 (.identifier 35 "P") [.identifier 36 "n"])
              "d")])]⟩

theorem SyntaxTree.parse_tokens_sample :
    SourceFile.sample.Printable (fun _ => "2") ∧
      SyntaxTree.ReadsAs (SourceFile.sample.tokens fun _ => "2") SourceFile.sample := by
  have isTwo : Double.ofText? "2" = some Double.two := by decide +kernel
  have printable : SourceFile.sample.Printable fun _ => "2" := by
    have ofNumber : ∀ id name typeId result, (∀ type ∈ result, type.Printable) →
        PrintableSignature [.named id name (.named typeId "Number")] result := by
      intro id name typeId result written
      exact ⟨by simp [Parameter.Printable, TypeExpression.Printable],
        by simp [DistinctParameters, Parameter.name?], written⟩
    have ofNothing : PrintableSignature [] none := ⟨by simp, by simp [DistinctParameters], by simp⟩
    refine ⟨by simp [SourceFile.sample], ?_⟩
    simp [SourceFile.sample, Declaration.TopPrintable, Declaration.Printable,
      Expression.Printable, Expression.AllPrintable, LambdaBody.Printable, Block.Printable,
      Statement.AllPrintable, Statement.Printable, ElseBranch.Printable, TypeExpression.Printable,
      TypeExpression.AllPrintable, Statement.isConditional, isTwo, ofNumber, ofNothing]
  exact ⟨printable, (SyntaxTree.parse_tokens _ _ printable).2 (by decide)⟩

end Toolshed
