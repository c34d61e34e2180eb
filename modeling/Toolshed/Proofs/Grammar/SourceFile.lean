import Mathlib.Data.List.TakeWhile
import Toolshed.Proofs.Grammar.Derivation
import Toolshed.Token.Scan

namespace Toolshed

/-!
# Files without faults

Every token that counts for the grammar has its place in a derivation of the tree
that is answered.
-/

variable {arena : Arena} {imports : List NodeId}

def Token.isItem (token : Token) : Bool :=
  match token.kind with
  | .whitespace | .comment | .unrecognised | .finish => false
  | _ => true

/-- The tokens of a file: those before the first `finish`. -/
def Token.beforeFinish (tokens : List Token) : List Token :=
  tokens.takeWhile fun token => token.kind ≠ .finish

/-- There is a line break after the last token that counts for the grammar. -/
def Token.EndsLine (tokens : List Token) : Prop :=
  ∃ early breaking late,
    tokens = early ++ breaking :: late ∧ breaking.breaksLine = true ∧
      ∀ token ∈ late, token.isItem = false

theorem Token.endsLine_cons {token : Token} {tokens : List Token} :
    Token.EndsLine (token :: tokens) ↔
      Token.EndsLine tokens ∨
        token.breaksLine = true ∧ ∀ other ∈ tokens, other.isItem = false := by
  constructor
  · rintro ⟨early, breaking, late, same, breaks, quiet⟩
    cases early with
    | nil =>
      obtain ⟨rfl, rfl⟩ := List.cons.inj same
      exact .inr ⟨breaks, quiet⟩
    | cons first early =>
      obtain ⟨rfl, rfl⟩ := List.cons.inj same
      exact .inl ⟨early, breaking, late, rfl, breaks, quiet⟩
  · rintro (⟨early, breaking, late, rfl, breaks, quiet⟩ | ⟨breaks, quiet⟩)
    · exact ⟨token :: early, breaking, late, rfl, breaks, quiet⟩
    · exact ⟨[], token, tokens, rfl, breaks, quiet⟩

theorem Item.significant_cons (broken : Bool) (token : Token) (rest : List Token)
    (notFinish : token.kind ≠ .finish) :
    (Item.significant broken (token :: rest)).1 =
      if token.isItem then
        ⟨token, broken⟩ :: (Item.significant false rest).1
      else
        (Item.significant (broken || token.breaksLine) rest).1 := by
  cases kind : token.kind with
  | finish => exact absurd kind notFinish
  | _ => simp [Item.significant, Token.isItem, kind]

theorem Item.map_token_significant (broken : Bool) (tokens : List Token) :
    (Item.significant broken tokens).1.map Item.token =
      (Token.beforeFinish tokens).filter Token.isItem := by
  induction tokens generalizing broken with
  | nil => rfl
  | cons token rest ih =>
    by_cases isFinish : token.kind = .finish
    · simp [Item.significant, Token.beforeFinish, isFinish]
    · have kept : Token.beforeFinish (token :: rest) = token :: Token.beforeFinish rest := by
        simp [Token.beforeFinish, isFinish]
      rw [Item.significant_cons broken token rest isFinish, kept, List.filter_cons]
      split
      · rw [List.map_cons, ih]
      · exact ih _

theorem Item.significant_append (broken : Bool) (before : List Token) (token : Token)
    (after : List Token) (notFinish : ∀ other ∈ before, other.kind ≠ .finish)
    (isItem : token.isItem = true) :
    ∃ item,
      (Item.significant broken (before ++ token :: after)).1[(before.filter Token.isItem).length]? =
        some item ∧
      item.token = token ∧
      (item.fresh = true ↔
        Token.EndsLine before ∨ broken = true ∧ ∀ other ∈ before, other.isItem = false) := by
  induction before generalizing broken with
  | nil =>
    have isToken : token.kind ≠ .finish :=
      fun isFinish => by simp [Token.isItem, isFinish] at isItem
    refine ⟨⟨token, broken⟩, ?_, rfl, ?_⟩
    · rw [List.nil_append, Item.significant_cons broken token after isToken, if_pos isItem]
      rfl
    · simp [Token.EndsLine]
  | cons first before ih =>
    have isFirst := notFinish first (List.mem_cons_self ..)
    have others := fun other member => notFinish other (List.mem_cons_of_mem first member)
    rw [List.cons_append, Item.significant_cons broken first _ isFirst]
    cases counts : first.isItem with
    | true =>
      obtain ⟨item, found, same, starts⟩ := ih false others
      refine ⟨item, by simpa [counts] using found, same, ?_⟩
      have noBreak : first.breaksLine = false := by
        cases kind : first.kind <;> simp [Token.isItem, Token.breaksLine, kind] at counts ⊢
      rw [starts, Token.endsLine_cons]
      simp [noBreak, counts]
    | false =>
      obtain ⟨item, found, same, starts⟩ :=
        ih (broken || first.breaksLine) others
      refine ⟨item, by simpa [counts] using found, same, ?_⟩
      rw [starts, Token.endsLine_cons]
      simp only [Bool.or_eq_true, List.mem_cons, forall_eq_or_imp]
      tauto

theorem ParseState.ready_start (tokens : List Token) : (ParseState.start tokens).Ready 0 := by
  refine ⟨rfl, fun item member isFinish => ?_, Nat.zero_le _⟩
  have kept : item.token ∈ (Token.beforeFinish tokens).filter Token.isItem := by
    rw [← Item.map_token_significant false]
    exact List.mem_map_of_mem member
  have isItem := (List.mem_filter.mp kept).2
  simp [Token.isItem, show item.token.kind = .finish from isFinish] at isItem

def Import.FoundSpelled
    (items : List Item)
    (found : Option Import)
    (rest : List Item) : Prop :=
  ∃ entry, found = some entry ∧ Import.Spelled items entry rest

namespace Grammar

open Parse ParseState

variable {inner : Phrases} [phrases : inner.Spells] {bound : Nat} {known : Arena → Prop}
variable {state : ParseState} {items middle rest : List Item} {before : Contents}

theorem runs_pathSegmentsUpTo (fuel : Nat) (ready : state.Ready bound) :
    Runs bound known state (pathSegmentsUpTo fuel) fun segments rest _ =>
      SegmentsSpelled state.rest segments rest := by
  induction fuel generalizing known state with
  | zero => exact Runs.pure fun _ _ => .nothing
  | succ fuel ih =>
    refine .eat ready (by decide) (fun dotted ready => ?_) fun _ => ?_
    · refine .bind ready (.name ready) fun segment named ready => ?_
      refine .bind ready (ih ready) fun others last ready => ?_
      refine .pure ?_
      rintro arena ⟨⟨⟨_, isDot, items⟩, isName, rfl, name⟩, spelled⟩
      rw [items, name]
      exact .more isDot isName spelled
    · exact .pure fun _ _ => .nothing

theorem spellsAt_importDeclaration :
    SpellsAt [.keyword .importWord] Import.FoundSpelled (fun arena _ id => arena.importAt? id) 0
      importDeclaration := by
  intro bound known state ready starts
  have isWord : state.kind = .keyword .importWord := List.mem_singleton.mp starts
  refine .ask ?_
  refine .next_shorter ready (by simp [isWord]) fun worded ready => ?_
  refine .bind ready (.name ready) fun first named ready => ?_
  refine .ask ?_
  refine .bind ready (runs_pathSegmentsUpTo _ ready) fun others chosen ready => ?_
  have tail : ∀ (chosenName : Option String) (before : ParseState) (knows : Arena → Prop),
      before.Ready bound →
      (∀ arena, knows arena → ∀ id rest,
        Terminated before.rest rest →
        Import.Spelled state.rest ⟨id, ⟨first :: others⟩, chosenName⟩ rest) →
      Runs bound knows before
        (do
          let range ← ask (·.rangeFrom state.current.range)
          terminator
          make (.importDecl ⟨first :: others⟩ chosenName) range)
        fun id rest arena =>
          ∃ tree, Import.FoundSpelled state.rest tree rest ∧
            arena.Shows (fun arena _ id => arena.importAt? id) 0 id tree := by
    intro chosenName before knows ready spelled
    refine .ask ?_
    refine .bind ready (.terminator ready) fun _ last ready => ?_
    refine .make ?_
    rintro ⟨knows, terminated⟩
    exact ⟨_, ⟨_, rfl, spelled _ knows _ _ terminated⟩, Arena.showsImport _ _ _⟩
  refine .eat ready (by decide) (fun asked ready => ?_) fun _ => ?_
  · refine .bind ready (.name ready) fun found last ready => ?_
    refine .pure_bind (tail (some found) last _ ready ?_)
    rintro arena ⟨⟨⟨⟨⟨_, items⟩, isName, rfl, name⟩, segments⟩, isAs, word⟩, isChosen, rfl, chosen⟩
      id rest terminated
    rw [word, chosen] at segments
    rw [items, name]
    exact .path isWord isName segments (.chosen isAs isChosen) terminated
  · refine tail none chosen _ ready ?_
    rintro arena ⟨⟨⟨_, items⟩, isName, rfl, name⟩, segments⟩ id rest terminated
    rw [items, name]
    exact .path isWord isName segments .nothing terminated

attribute [local simp] Declaration.words

theorem spells_classMember :
    Spells Declaration.Spelled Arena.declarationAt 1 (classMember inner) := by
  intro bound known state ready
  have declares : state.kind ∈ Declaration.words →
      Runs bound known state inner.declaration fun id rest arena =>
        ∃ tree : Declaration, tree.Spelled state.rest rest ∧ arena.ShowsDeclaration id tree :=
    fun starts => .imp (phrases.declaration _ _ _ ready starts) fun _ _ _ _ found => found.1
  refine .ask ?_
  split
  · rename_i isLet
    exact declares (by simp [isLet])
  · rename_i isVar
    exact declares (by simp [isVar])
  · rename_i isFun
    exact declares (by simp [isFun])
  · exact .refuse ready _

theorem spellsAt_classDeclaration :
    SpellsAt [.keyword .classWord] Declaration.TopSpelled Arena.declarationAt 1
      (classDeclaration inner) := by
  intro bound known state ready starts
  have isWord : state.kind = .keyword .classWord := List.mem_singleton.mp starts
  refine .ask ?_
  refine .next_shorter ready (by simp [isWord]) fun worded ready => ?_
  refine .bind ready (.name ready) fun declared named ready => ?_
  refine .bind ready (runs_parameters ready) fun found inside ready => ?_
  refine .eat ready (by decide) (fun opened ready => ?_) fun _ => ?_
  · dsimp only [if_true]
    rw [deeper_statements]
    refine .bind ready
      (runs_statements spells_classMember Declaration.MembersSpelled.nothing .more
        ready) ?_
    intro members after ready
    refine .bind ready (.expect ready rfl) fun _ closed ready => ?_
    refine .pure_bind (.makeFrom ?_)
    rintro ⟨⟨⟨⟨⟨⟨_, items⟩, isName, rfl, name⟩, parameterTrees, parameters, shownParameters⟩,
      isOpening, opening⟩, memberTrees, spelled, shownMembers⟩, isClosing, closing⟩
    rw [opening] at parameters
    rw [closing] at spelled
    rw [items, name]
    exact ⟨_, .classType isWord isName parameters (.braces isOpening spelled isClosing),
      Arena.showsDeclaration_classType _ shownParameters shownMembers⟩
  · refine .pure_bind (.makeFrom ?_)
    rintro ⟨⟨⟨_, items⟩, isName, rfl, name⟩, parameterTrees, parameters, shownParameters⟩
    rw [items, name]
    exact ⟨_, .classType isWord isName parameters .nothing,
      Arena.showsDeclaration_classType _ shownParameters .nil⟩

def Contents.Spelled
    (items : List Item)
    (contents : Contents)
    (rest : List Item)
    (arena : Arena) : Prop :=
  ∃ imports declared declarations,
    Import.AllSpelled items imports declared ∧
      Declaration.AllTopSpelled declared declarations rest ∧
        List.Forall₂ arena.ShowsImport contents.imports imports ∧
          List.Forall₂ arena.ShowsDeclaration contents.declarations declarations

theorem allSpelled_concat {imports : List Import} {entry : Import}
    (all : Import.AllSpelled items imports middle) (last : Import.Spelled middle entry rest) :
    Import.AllSpelled items (imports ++ [entry]) rest := by
  induction all with
  | nothing => exact .more last .nothing
  | more first _ ih => exact .more first (ih last)

theorem allTopSpelled_concat {declarations : List Declaration} {declared : Declaration}
    (all : Declaration.AllTopSpelled items declarations middle)
    (last : Declaration.TopSpelled middle declared rest) :
    Declaration.AllTopSpelled items (declarations ++ [declared]) rest := by
  induction all with
  | nothing => exact .more last .nothing
  | more first _ ih => exact .more first (ih last)

theorem runs_topLevel (ready : state.Ready bound)
    (knows : ∀ arena, known arena → Contents.Spelled items before state.rest arena) :
    Runs bound known state (topLevel inner before) fun after rest arena =>
      Contents.Spelled items after rest arena ∧ rest.length < state.rest.length := by
  have adds : ∀ {kinds reader},
      SpellsAt kinds Declaration.TopSpelled Arena.declarationAt 1 reader →
      state.kind ∈ kinds →
      Runs bound known state
        (do
          let node ← reader
          return { before with declarations := before.declarations ++ [node] })
        fun after rest arena =>
          Contents.Spelled items after rest arena ∧ rest.length < state.rest.length := by
    intro kinds reader spells starts
    refine .bind ready (spells _ _ _ ready starts) fun node after ready => ?_
    refine .pure ?_
    rintro arena ⟨known, ⟨tree, spelled, shown⟩, shorter⟩
    obtain ⟨imports, declared, declarations, allImports, all, shownImports, shownAll⟩ :=
      knows _ known
    exact ⟨⟨imports, declared, _, allImports, allTopSpelled_concat all spelled, shownImports,
      List.rel_append shownAll (.cons shown .nil)⟩, shorter⟩
  have declares : state.kind ∈ Declaration.words →
      Runs bound known state
        (do
          let node ← declaration inner
          return { before with declarations := before.declarations ++ [node] })
        fun after rest arena =>
          Contents.Spelled items after rest arena ∧ rest.length < state.rest.length := by
    refine adds fun bound known state ready starts => ?_
    refine .imp (spellsAt_declaration _ _ _ ready starts) ?_
    rintro id rest arena _ ⟨⟨tree, spelled, shown⟩, shorter⟩
    exact ⟨⟨tree, .member spelled, shown⟩, shorter⟩
  refine .ask ?_
  split
  · rename_i isImport
    refine .bind ready (spellsAt_importDeclaration _ _ _ ready (by simp [isImport])) ?_
    intro node after ready
    split
    · rename_i isEarly
      refine .pure ?_
      rintro arena ⟨known, ⟨_, ⟨entry, rfl, spelled⟩, shown⟩, shorter⟩
      obtain ⟨imports, declared, declarations, allImports, all, shownImports, shownAll⟩ :=
        knows _ known
      -- Nothing was declared yet, so the imports reach up to the new one.
      rw [List.isEmpty_iff.mp isEarly] at shownAll
      cases shownAll
      cases all
      refine ⟨⟨_, _, [], allSpelled_concat allImports spelled, .nothing,
        List.rel_append shownImports (.cons shown .nil), ?_⟩, shorter⟩
      rw [List.isEmpty_iff.mp isEarly]
      exact .nil
    · refine .bind ready (.note ready _ node) fun _ _ _ => ?_
      exact .pure fun _ impossible => impossible.2.elim
  · rename_i isLet
    exact declares (by simp [isLet])
  · rename_i isVar
    exact declares (by simp [isVar])
  · rename_i isFun
    exact declares (by simp [isFun])
  · rename_i isClass
    exact adds spellsAt_classDeclaration (by simp [isClass])
  · exact .refuse ready _

theorem runs_recover (count : Nat) (ready : state.Ready bound) :
    Runs bound known state (recover count) fun _ _ _ => True := by
  refine .bind ready (.synchronise count) fun _ after ready => ?_
  refine .eat ready (by decide) (fun _ _ => ?_) fun _ => ?_
  · exact .pure fun _ _ => trivial
  · exact .pure fun _ _ => trivial

theorem runs_contentsUpTo (fuel : Nat) (ready : state.Ready bound)
    (knows :
      ∀ arena, known arena →
        Contents.Spelled items before state.rest arena ∧ state.rest.length ≤ fuel) :
    Runs bound known state (contentsUpTo inner fuel before) fun after rest arena =>
      Contents.Spelled items after rest arena ∧ rest = [] := by
  induction fuel generalizing known state before with
  | zero =>
    refine .pure fun arena known => ?_
    obtain ⟨spelled, short⟩ := knows arena known
    exact ⟨spelled, List.length_eq_zero_iff.mp (Nat.le_zero.mp short)⟩
  | succ fuel ih =>
    refine .ask ?_
    split
    · rename_i isFinish
      refine .pure fun arena known => ⟨(knows arena known).1, ?_⟩
      cases rest : state.rest with
      | nil => rfl
      | cons item others =>
        have isItem := ready.items item (by simp [rest])
        simp [atFinish, kind, current, rest, isItem] at isFinish
    · refine .ask ?_
      refine .bind ready
        (runs_topLevel ready fun arena known => (knows arena known).1).attempt ?_
      intro answer after ready
      cases answer with
      | some found =>
        refine ih ready ?_
        rintro arena ⟨known, _, same, spelled, shorter⟩
        obtain rfl := Option.some.inj same
        have short := (knows arena known).2
        exact ⟨spelled, Nat.le_of_lt_succ (Nat.lt_of_lt_of_le shorter short)⟩
      | none =>
        refine .bind ready (runs_recover _ ready) fun _ last ready => ?_
        refine ih ready ?_
        -- What failed has reported a fault.
        rintro arena ⟨⟨_, _, impossible, _⟩, _⟩
        simp at impossible

end Grammar

def Arena.fileAt (arena : Arena) (_ : Nat) (root : NodeId) : SourceFile :=
  SyntaxTree.sourceFile ⟨arena, root⟩

theorem Arena.filterMap_importAt? {larger : Arena} {trees : List Import}
    (shown : List.Forall₂ arena.ShowsImport imports trees) (within : arena.Within larger) :
    imports.filterMap larger.importAt? = trees := by
  induction shown with
  | nil => rfl
  | cons first _ ih =>
    rw [List.filterMap_cons_some (first.reads larger _ within (Nat.le_refl _)),
      ih]

theorem Arena.showsFile {declarations : List NodeId} {importTrees : List Import}
    {trees : List Declaration} (range : Range)
    (shownImports : List.Forall₂ arena.ShowsImport imports importTrees)
    (shown : List.Forall₂ arena.ShowsDeclaration declarations trees) :
    (arena.add (.sourceFile imports declarations) range).Shows Arena.fileAt 0 arena.next
      ⟨importTrees, trees⟩ :=
  .of_add fun larger fuel found within _ => by
    have deep : 2 * arena.nodes.size ≤ 2 * larger.nodes.size :=
      Nat.mul_le_mul_left 2 (by simpa using within.length_le)
    simp [Arena.fileAt, SyntaxTree.sourceFile, SyntaxTree.imports, SyntaxTree.depth, found,
      filterMap_importAt? shownImports within, Shows.map_below shown within deep]

theorem Grammar.runs_sourceFile {inner : Phrases} [inner.Spells] {bound : Nat}
    {known : Arena → Prop} {state : ParseState} (ready : state.Ready bound) :
    Parse.Runs bound known state (sourceFile inner) fun root _ arena =>
      ∃ file, SourceFile.Spelled state.rest file ∧ arena.Shows Arena.fileAt 0 root file := by
  refine .ask (.ask ?_)
  have nothing : ∀ arena, known arena →
      Contents.Spelled state.rest ⟨[], []⟩ state.rest arena ∧
        state.rest.length ≤ state.rest.length :=
    fun _ _ => ⟨⟨[], state.rest, [], .nothing, .nothing, .nil, .nil⟩, Nat.le_refl _⟩
  refine .bind ready (runs_contentsUpTo _ ready nothing) ?_
  intro contents last ready
  have makes : ∀ range,
      Parse.Runs bound
        (fun arena => known arena ∧ Contents.Spelled state.rest contents last.rest arena ∧
          last.rest = [])
        last (Parse.make (.sourceFile contents.imports contents.declarations) range)
        fun root _ arena =>
          ∃ file, SourceFile.Spelled state.rest file ∧ arena.Shows Arena.fileAt 0 root file := by
    intro range
    refine .make ?_
    rintro ⟨_, ⟨imports, declared, declarations, allImports, all, shownImports, shown⟩, isEnd⟩
    rw [isEnd] at all
    exact ⟨_, ⟨declared, allImports, all⟩, Arena.showsFile range shownImports shown⟩
  split
  · exact .ask (makes _)
  · exact .ask (makes _)

theorem SyntaxTree.spelled_significant (tokens : List Token)
    (faultless : (SyntaxTree.parse tokens).diagnostics = []) :
    SourceFile.Spelled (Item.significant false tokens).1
      (SyntaxTree.parse tokens).tree.sourceFile := by
  have runs :=
    @Grammar.runs_sourceFile (.upTo maxNesting) _ 0 (fun _ => True) _
      (ParseState.ready_start tokens)
  have quiet : (Grammar.sourceFile (.upTo maxNesting) (.start tokens)).2.faults ≤ 0 :=
    Nat.le_of_eq (congrArg List.length faultless)
  obtain ⟨root, answered, found⟩ := runs.answers quiet fun _ _ => trivial
  obtain ⟨file, spelled, shown⟩ := found _ (.refl _)
  have isFile : (SyntaxTree.parse tokens).tree.sourceFile = file := by
    have reads := shown.reads _ _ (.refl _) (Nat.le_refl _)
    simpa [Arena.fileAt, SyntaxTree.parse, answered] using reads
  rw [isFile]
  exact spelled

/--
Tokens without a fault are a file of the language. The items of the derivation
are all tokens that count for the grammar, in order, and each is marked with
whether a line break stands before it.
-/
theorem SyntaxTree.spelled_of_parse
    (tokens : List Token)
    (faultless : (SyntaxTree.parse tokens).diagnostics = []) :
    ∃ items : List Item,
      items.map Item.token = (Token.beforeFinish tokens).filter Token.isItem ∧
        (∀ before token after,
          Token.beforeFinish tokens = before ++ token :: after →
          token.isItem = true →
          ∃ item,
            items[(before.filter Token.isItem).length]? = some item ∧ item.token = token ∧
              (item.fresh = true ↔ Token.EndsLine before)) ∧
          SourceFile.Spelled items (SyntaxTree.parse tokens).tree.sourceFile := by
  refine ⟨_, Item.map_token_significant false tokens, ?_, spelled_significant tokens faultless⟩
  intro before token after divided isItem
  have whole : tokens = before ++ token :: (after ++ tokens.dropWhile (·.kind ≠ .finish)) := by
    rw [← List.cons_append, ← List.append_assoc, ← divided, Token.beforeFinish,
      List.takeWhile_append_dropWhile]
  have notFinish : ∀ other ∈ before, other.kind ≠ .finish := by
    intro other member
    have inside : other ∈ Token.beforeFinish tokens := by
      rw [divided]
      exact List.mem_append_left _ member
    simpa using List.mem_takeWhile_imp inside
  obtain ⟨item, found, same, starts⟩ :=
    Item.significant_append false before token _ notFinish isItem
  rw [← whole] at found
  exact ⟨item, found, same, by simpa using starts⟩

/-- A module with an import, a class, a function and operators of several levels. -/
def SourceFile.sampleTokens : List Token :=
  (Token.scan
    ("import m as c\nclass P(x: Number) \x7b let d = x * 2 - 1 \x7d\n" ++
      "fun f(n: Number): Number \x7b\n  if n > 0 \x7b return -n \x7d\n" ++
      "  return f(n)\n\x7d\n")).tokens

theorem SyntaxTree.spelled_of_parse_sample :
    (SyntaxTree.parse SourceFile.sampleTokens).diagnostics = [] ∧
      ∃ items : List Item,
        items.map Item.token =
          (Token.beforeFinish SourceFile.sampleTokens).filter Token.isItem ∧
        SourceFile.Spelled items (SyntaxTree.parse SourceFile.sampleTokens).tree.sourceFile := by
  have faultless : (SyntaxTree.parse SourceFile.sampleTokens).diagnostics = [] := by
    decide +kernel
  obtain ⟨items, same, _, spelled⟩ := SyntaxTree.spelled_of_parse _ faultless
  exact ⟨faultless, items, same, spelled⟩

end Toolshed
