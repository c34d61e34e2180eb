import Toolshed.Grammar.SourceFile
import Toolshed.Proofs.Grammar.Growth
import Toolshed.Proofs.Syntax.Clean

namespace Toolshed

/-!
# The grammar builds proper trees

The nodes that reading makes form a forest in which every node fits its place, and
every diagnostic is at a node that was made or at a range.
-/

open Parse ParseState

attribute [local simp] Node.names Fault.kind

/-- A reader that goes on from a left operand to an expression. -/
def Parse.Carries (allowed : Allowance) (reader : NodeId → Parse NodeId) : Prop :=
  ∀ state base subject,
    Holding allowed base [⟨.expression, subject⟩] state →
    Builds allowed base state (reader subject) fun id => Held base [⟨.expression, id⟩]

/-- Readers of one level that build what their places require. -/
class Phrases.Sound (allowed : Allowance) (phrases : Phrases) : Prop where
  tiers : Reads allowed .expression phrases.tiers
  unary : Reads allowed .expression phrases.unary
  expression : Reads allowed .expression phrases.expression
  ascription : Reads allowed .type phrases.ascription
  statement : Reads allowed .statement phrases.statement
  conditional : Reads allowed .branch phrases.conditional
  declaration : Reads allowed .member phrases.declaration

namespace Parse

variable {allowed : Allowance} {category : Category} {phrase : Parse NodeId}

/-- Phrases between commas are for places of one kind. -/
theorem Reads.separatedUpTo (reads : Reads allowed category phrase) (fuel : Nat) :
    ReadsList allowed category (Parse.separatedUpTo phrase fuel) := by
  induction fuel with
  | zero =>
    intro state sound
    refine .take (.start sound) reads ?_
    intro only after holding
    exact .done holding
  | succ fuel ih =>
    intro state sound
    refine .take (.start sound) reads ?_
    intro first afterFirst holding
    refine .pass holding ?_
    intro isComma afterComma holding
    split
    · refine .take holding ih ?_
      intro others after holding
      exact .done holding
    · exact .done holding

theorem Reads.separated (reads : Reads allowed category phrase) :
    ReadsList allowed category (Parse.separated phrase) := by
  intro state sound
  have builds := reads.separatedUpTo state.rest.length state sound
  exact ⟨builds.grows, builds.answers⟩

end Parse

namespace Grammar

variable {allowed : Allowance} {inner : Phrases} [phrases : inner.Sound allowed]
variable {category : Category}

/-- The type of a function holds its parameters and its result. -/
theorem reads_functionType {start : Range}
    (isStart : allowed.range start) : Reads allowed .type (functionType inner start) := by
  intro state sound
  refine .ask ?_
  have rest : ∀ parameters after,
      Holding allowed state.size (parameters.map (.mk .type)) after →
      Builds allowed state.size after
        (do
          expect (.symbol .rightParen)
          expect (.symbol .arrow)
          let result ← inner.ascription
          makeFrom start (.functionType parameters result))
        fun id => Held state.size [⟨.type, id⟩] := by
    intro parameters after holding
    refine .pass holding fun _ _ holding => ?_
    refine .pass holding fun _ _ holding => ?_
    refine .take holding phrases.ascription fun result _ holding => ?_
    exact builds_makeFrom _ holding rfl (by simp) isStart
  split
  · exact rest [] state (.start sound)
  · exact .take (.start sound) phrases.ascription.separated rest

/-- A written type is a name or the type of a function. -/
theorem reads_ascription :
    Reads allowed .type (ascription inner) := by
  intro state sound
  have nothing := Holding.start sound
  refine .ask (.ask ?_)
  split
  · refine .name nothing fun typeName _ isAllowed holding => ?_
    exact builds_make _ holding rfl (by simpa using isAllowed) sound.current
  · refine .pass nothing fun _ _ holding => ?_
    exact .last holding (.deeper (reads_functionType sound.current))
  · exact builds_refuse sound (by simp)

/-- A parameter is read together with its name. -/
theorem takes_parameter (taken : List String) :
    Takes allowed (parameter inner taken) fun found => [⟨.parameter, found.2⟩] := by
  intro state sound
  refine .ask ?_
  refine .name (.start sound) fun parameterName _ isAllowed holding => ?_
  refine .pass holding fun _ _ holding => ?_
  refine .take holding reads_ascription fun type _ holding => ?_
  have names : ∀ name ∈ (Node.parameter parameterName type).names, allowed.name name := by
    simpa using isAllowed
  refine .replace (builds_makeFrom .parameter holding rfl names sound.current)
    holding.smaller ?_
  intro node _ holding
  split
  · refine .note holding (by simp) (List.mem_singleton_self _) ?_
    intro _ holding
    exact .done holding
  · exact .done holding

theorem readsList_parametersUpTo (fuel : Nat)
    (taken : List String) : ReadsList allowed .parameter (parametersUpTo inner fuel taken) := by
  induction fuel generalizing taken with
  | zero =>
    intro state sound
    refine .take (.start sound) (takes_parameter taken) ?_
    intro only after holding
    exact .done holding
  | succ fuel ih =>
    intro state sound
    refine .take (.start sound) (takes_parameter taken) ?_
    intro first after holding
    refine .pass holding fun isComma _ holding => ?_
    split
    · refine .take holding (ih _) fun others _ holding => ?_
      exact .done holding
    · exact .done holding

/-- A list of parameters is empty or goes on to the closing sign. -/
theorem readsList_parameters :
    ReadsList allowed .parameter (parameters inner) := by
  intro state sound
  refine .pass (.start sound) fun _ middle holding => ?_
  refine .ask ?_
  have rest : ∀ (found : List NodeId) after,
      Holding allowed state.size (found.map (.mk .parameter)) after →
      Builds allowed state.size after
        (do
          expect (.symbol .rightParen)
          return found)
        fun ids : List NodeId => Held state.size (ids.map (.mk .parameter)) := by
    intro found after holding
    refine .pass holding fun _ _ holding => ?_
    exact .done holding
  split
  · exact rest [] middle holding
  · refine .ask ?_
    exact .take holding (readsList_parametersUpTo _ []) rest

theorem readsOption_optionalAscription :
    ReadsOption allowed .type (optionalAscription inner) := by
  intro state sound
  refine .pass (.start sound) fun isColon _ holding => ?_
  split
  · refine .take holding reads_ascription fun type _ holding => ?_
    exact .done holding
  · exact .done holding

/-- A statement that fails is skipped and leaves no node to place. -/
theorem readsList_statementsUpTo {statement : Parse NodeId}
    (reads : Reads allowed category statement) (fuel : Nat) :
    ReadsList allowed category (statementsUpTo statement fuel) := by
  induction fuel with
  | zero =>
    intro state sound
    exact .done (.start sound)
  | succ fuel ih =>
    intro state sound
    have nothing := Holding.start sound
    refine .ask ?_
    split
    · exact .done nothing
    · refine .ask ?_
      refine .take nothing (.attempt reads) fun answer _ holding => ?_
      cases answer with
      | none =>
        refine .pass holding fun _ _ holding => ?_
        exact .last holding ih
      | some node =>
        refine .take holding ih fun others _ holding => ?_
        exact .done holding

theorem readsList_statements {statement : Parse NodeId} (reads : Reads allowed category statement) :
    ReadsList allowed category (statements statement) :=
  fun state sound => .ask (readsList_statementsUpTo reads state.rest.length state sound)

/-- A block holds the statements between its braces. -/
theorem reads_block (admitted : ∀ found, category.admits (.block found) = true) :
    Reads allowed category (block inner) := by
  intro state sound
  refine .ask ?_
  refine .pass (.start sound) fun _ _ holding => ?_
  rw [deeper_statements]
  refine .take holding (.deeper (readsList_statements phrases.statement)) ?_
  intro found _ holding
  refine .pass holding fun _ _ holding => ?_
  exact builds_makeFrom _ holding (admitted found) (by simp) sound.current

theorem reads_ownBlock : Reads allowed .block (block inner) :=
  reads_block fun _ => rfl

theorem reads_expression :
    Reads allowed .expression (expression inner) :=
  Takes.deeper phrases.tiers

/-- A lambda holds its parameters, result and body. -/
theorem reads_lambda :
    Reads allowed .expression (lambda inner) := by
  intro state sound
  refine .ask ?_
  refine .pass (.start sound) fun _ _ holding => ?_
  refine .take holding readsList_parameters fun found _ holding => ?_
  refine .take holding readsOption_optionalAscription fun result _ holding => ?_
  refine .pass holding fun isArrow _ holding => ?_
  split
  · refine .take holding reads_expression fun body _ holding => ?_
    exact builds_makeFrom _ holding rfl (by simp) sound.current
  · refine .ask ?_
    split
    · refine .take holding reads_ownBlock fun body _ holding => ?_
      exact builds_makeFrom _ holding rfl (by simp) sound.current
    · exact builds_refuse holding.sound (by simp)

theorem reads_numberLiteral : Reads allowed .expression numberLiteral := by
  intro state sound
  refine .next (.start sound) fun token after isRange holding => ?_
  dsimp only
  split
  · exact builds_make _ holding rfl (by simp) isRange
  · exact .fails (grows_report holding.sound ⟨by simp, by simp⟩ isRange) rfl

theorem reads_parenthesised :
    Reads allowed .expression (parenthesised inner) := by
  intro state sound
  refine .ask ?_
  refine .pass (.start sound) fun _ _ holding => ?_
  refine .pass holding fun isUnit _ holding => ?_
  split
  · exact builds_makeFrom _ holding rfl (by simp) sound.current
  · refine .take holding reads_expression fun found _ holding => ?_
    refine .pass holding fun _ _ holding => ?_
    exact .done holding

/-- An expression without operators and links is a node of its own. -/
theorem reads_primary :
    Reads allowed .expression (primary inner) := by
  intro state sound
  have nothing := Holding.start sound
  refine .ask (.ask ?_)
  split
  · exact reads_numberLiteral state sound
  · refine .pass nothing fun _ _ holding => ?_
    exact builds_make _ holding rfl (by simp) sound.current
  · refine .pass nothing fun _ _ holding => ?_
    exact builds_make _ holding rfl (by simp) sound.current
  · refine .pass nothing fun _ _ holding => ?_
    exact builds_make _ holding rfl (by simp) sound.current
  · refine .name nothing fun found _ isAllowed holding => ?_
    exact builds_make _ holding rfl (by simpa using isAllowed) sound.current
  · exact reads_parenthesised state sound
  · exact reads_lambda state sound
  · exact builds_refuse sound (by simp)

theorem readsList_arguments :
    ReadsList allowed .expression (arguments inner) := by
  intro state sound
  refine .pass (.start sound) fun _ middle holding => ?_
  refine .ask ?_
  have rest : ∀ (found : List NodeId) after,
      Holding allowed state.size (found.map (.mk .expression)) after →
      Builds allowed state.size after
        (do
          expect (.symbol .rightParen)
          return found)
        fun ids : List NodeId => Held state.size (ids.map (.mk .expression)) := by
    intro found after holding
    refine .pass holding fun _ _ holding => ?_
    exact .done holding
  split
  · exact rest [] middle holding
  · exact .take holding phrases.expression.separated rest

/-- A call or a member holds what stands before it. -/
theorem carries_link (isCall : Bool) :
    Carries allowed (link inner isCall) := by
  intro state base subject holding
  unfold link
  split
  · refine .take holding readsList_arguments fun found after holding => ?_
    refine .ask ?_
    exact builds_makeFrom _ holding rfl (by simp) (holding.sound.rangeOf subject)
  · refine .pass holding fun _ _ holding => ?_
    refine .name holding fun memberName _ isAllowed holding => ?_
    refine .ask ?_
    exact builds_makeFrom _ holding rfl (by simpa using isAllowed)
      (holding.sound.rangeOf subject)

/-- A chain of links keeps one root: the last link. -/
theorem carries_linked {κ : Type} {find : ParseState → Option κ}
    {link : κ → NodeId → Parse NodeId} (carries : ∀ sort, Carries allowed (link sort))
    (fuel : Nat) : Carries allowed (linked find link fuel) := by
  induction fuel with
  | zero => exact fun _ _ _ holding => Builds.done holding
  | succ fuel ih =>
    intro state base before holding
    have deeperHolding := holding_withDepth holding (state.depth + 1)
    rw [linked_succ]
    refine .ask ?_
    split
    · refine .deeper holding.sound ?_
      refine .replace (carries _ _ base before deeperHolding) deeperHolding.smaller ?_
      intro node after holding
      exact ih after base node holding
    · exact .done holding

theorem reads_unary :
    Reads allowed .expression (unary inner) := by
  intro state sound
  have nothing := Holding.start sound
  refine .ask ?_
  split
  · refine .next nothing fun _ _ isRange holding => ?_
    rw [deeper_bind]
    refine .take holding (.deeper phrases.unary) fun operand _ holding => ?_
    refine .ask ?_
    exact builds_make _ holding rfl (by simp)
      (allowed.merge isRange (holding.sound.rangeOf operand))
  · refine .take nothing reads_primary fun subject after holding => ?_
    rw [suffixes_eq]
    exact .ask (carries_linked carries_link _ after state.size subject holding)

/-- An operation holds both of its operands. -/
theorem carries_operation {operand : Parse NodeId} (reads : Reads allowed .expression operand)
    (operator : BinaryOp) : Carries allowed (operation operator operand) := by
  intro state base left holding
  refine .pass holding fun _ _ holding => ?_
  refine .take holding reads fun right _ holding => ?_
  refine .ask (.ask ?_)
  exact builds_make _ holding rfl (by simp)
    (allowed.merge (holding.sound.rangeOf left) (holding.sound.rangeOf right))

/-- Expressions are read tier by tier, by induction on the tiers. -/
theorem reads_tiers (tiers : List Tier) :
    Reads allowed .expression (Grammar.tiers inner tiers) := by
  induction tiers with
  | nil => exact reads_unary
  | cons tier tighter ih =>
    intro state sound
    refine .take (.start sound) ih ?_
    intro left after holding
    refine .ask ?_
    exact carries_linked (fun _ => carries_operation ih _) _ after state.size left holding

/-- A value holds its written type and its initial value. -/
theorem reads_letDeclaration
    (admitted :
      ∀ isVar name type value, category.admits (.letDecl isVar name type value) = true) :
    Reads allowed category (letDeclaration inner) := by
  intro state sound
  refine .ask ?_
  refine .pass (.start sound) fun word _ holding => ?_
  refine .name holding fun declared _ isAllowed holding => ?_
  refine .take holding readsOption_optionalAscription fun type _ holding => ?_
  refine .pass holding fun _ _ holding => ?_
  refine .take holding reads_expression fun value _ holding => ?_
  have isRange := holding.sound.rangeFrom sound.current
  refine .ask ?_
  refine .pass holding fun _ _ holding => ?_
  exact builds_make _ holding (admitted _ _ _ _) (by simpa using isAllowed) isRange

/-- A function holds its parameters, result and body. -/
theorem reads_funDeclaration (admitted :
      ∀ name found result body, category.admits (.funDecl name found result body) = true) :
    Reads allowed category (funDeclaration inner) := by
  intro state sound
  refine .ask ?_
  refine .pass (.start sound) fun _ _ holding => ?_
  refine .name holding fun declared _ isAllowed holding => ?_
  refine .take holding readsList_parameters fun found _ holding => ?_
  refine .take holding readsOption_optionalAscription fun result _ holding => ?_
  refine .take holding reads_ownBlock fun body _ holding => ?_
  exact builds_makeFrom _ holding (admitted _ _ _ _) (by simpa using isAllowed)
    sound.current

theorem reads_declaration
    (admitsLet :
      ∀ isVar name type value, category.admits (.letDecl isVar name type value) = true)
    (admitsFun :
      ∀ name found result body, category.admits (.funDecl name found result body) = true) :
    Reads allowed category (declaration inner) := by
  intro state sound
  refine .ask ?_
  split
  · exact reads_funDeclaration admitsFun state sound
  · exact reads_letDeclaration admitsLet state sound

/-- A `return` holds its value, if it has one. -/
theorem reads_returnStatement :
    Reads allowed .statement (returnStatement inner) := by
  intro state sound
  refine .ask ?_
  refine .pass (.start sound) fun _ middle holding => ?_
  refine .ask ?_
  have rest : ∀ (value : Option NodeId) after,
      Holding allowed state.size (value.toList.map (.mk .expression)) after →
      Builds allowed state.size after
        (do
          let range ← ask (·.rangeFrom state.current.range)
          terminator
          make (.returnStatement value) range)
        fun id => Held state.size [⟨.statement, id⟩] := by
    intro value after holding
    have isRange := holding.sound.rangeFrom sound.current
    refine .ask ?_
    refine .pass holding fun _ _ holding => ?_
    exact builds_make _ holding rfl (by simp) isRange
  split
  · exact rest none middle holding
  · refine .take holding reads_expression fun found after holding => ?_
    exact rest (some found) after holding

/-- After `else` stands a block or another `if`. -/
theorem readsOption_elseBranch :
    ReadsOption allowed .branch (elseBranch inner) := by
  intro state sound
  refine .pass (.start sound) fun isElse _ holding => ?_
  split
  · refine .ask ?_
    split
    · rw [deeper_bind]
      refine .take holding (.deeper phrases.conditional) fun nested _ holding => ?_
      exact .done holding
    · have reads : Reads allowed .branch (block inner) := reads_block fun _ => rfl
      refine .take holding reads fun found _ holding => ?_
      exact .done holding
  · exact .done holding

/-- An `if` holds its condition and its branches. -/
theorem reads_conditional (admitted :
      ∀ condition thenBlock otherwise,
        category.admits (.ifStatement condition thenBlock otherwise) = true) :
    Reads allowed category (conditional inner) := by
  intro state sound
  refine .ask ?_
  refine .pass (.start sound) fun _ _ holding => ?_
  refine .take holding reads_expression fun condition _ holding => ?_
  refine .take holding reads_ownBlock fun thenBlock _ holding => ?_
  refine .take holding readsOption_elseBranch fun otherwise _ holding => ?_
  exact builds_makeFrom _ holding (admitted _ _ _) (by simp) sound.current

theorem reads_loop :
    Reads allowed .statement (loop inner) := by
  intro state sound
  refine .ask ?_
  refine .pass (.start sound) fun _ _ holding => ?_
  refine .take holding reads_expression fun condition _ holding => ?_
  refine .take holding reads_ownBlock fun body _ holding => ?_
  exact builds_makeFrom _ holding rfl (by simp) sound.current

theorem reads_assignment :
    Reads allowed .statement (assignment inner) := by
  intro state sound
  refine .ask ?_
  refine .name (.start sound) fun target _ isAllowed holding => ?_
  refine .pass holding fun _ _ holding => ?_
  refine .take holding reads_expression fun value _ holding => ?_
  have isRange := holding.sound.rangeFrom sound.current
  refine .ask ?_
  refine .pass holding fun _ _ holding => ?_
  exact builds_make _ holding rfl (by simpa using isAllowed) isRange

theorem reads_expressionStatement :
    Reads allowed .statement (expressionStatement inner) := by
  intro state sound
  refine .take (.start sound) reads_expression ?_
  intro found after holding
  refine .ask ?_
  refine .branch ?_ ?_
  · refine .fails (grows_report holding.sound ⟨by simp, ?_⟩ trivial) rfl
    intro node place
    obtain rfl : found = node := by simpa using place
    exact holding.held.lt_size (List.mem_singleton_self _)
  · have isRange := holding.sound.rangeOf found
    refine .ask ?_
    refine .pass holding fun _ _ holding => ?_
    exact builds_make _ holding rfl (by simp) isRange

/-- A statement is told by its first one or two tokens. -/
theorem reads_statement :
    Reads allowed .statement (statement inner) := by
  intro state sound
  refine .ask ?_
  dsimp only
  split
  · exact reads_letDeclaration (fun _ _ _ _ => rfl) state sound
  · exact reads_letDeclaration (fun _ _ _ _ => rfl) state sound
  · exact reads_funDeclaration (fun _ _ _ _ => rfl) state sound
  · exact reads_returnStatement state sound
  · exact reads_conditional (fun _ _ _ => rfl) state sound
  · exact reads_loop state sound
  · exact reads_assignment state sound
  · exact reads_expressionStatement state sound

end Grammar

namespace Phrases

variable {allowed : Allowance}

/-- Without levels no phrase is read, and nothing is built. -/
theorem sound_none : Phrases.none.Sound allowed := by
  have refuses : ∀ category, Reads allowed category (refuse fun _ => .tooDeep) := by
    intro category state sound
    exact builds_refuse sound (by simp)
  exact ⟨refuses _, refuses _, refuses _, refuses _, refuses _, refuses _, refuses _⟩

/-- Sound readers make the readers one level up sound. -/
theorem Sound.above {inner : Phrases} [inner.Sound allowed] : inner.above.Sound allowed where
  tiers := Grammar.reads_tiers Tier.all
  unary := Grammar.reads_unary
  expression := Grammar.reads_expression
  ascription := Grammar.reads_ascription
  statement := Grammar.reads_statement
  conditional := Grammar.reads_conditional fun _ _ _ => rfl
  declaration := Grammar.reads_declaration (fun _ _ _ _ => rfl) fun _ _ _ _ => rfl

/-- The readers are sound at every level. -/
instance sound_upTo (levels : Nat) : (Phrases.upTo levels).Sound allowed := by
  induction levels with
  | zero => exact sound_none
  | succ levels ih => exact ih.above

end Phrases

namespace Grammar

variable {allowed : Allowance} {inner : Phrases} [phrases : inner.Sound allowed]
variable {state : ParseState} {before : Contents}

theorem builds_pathSegmentsUpTo (fuel : Nat) (state : ParseState) (sound : state.Sound allowed) :
    Builds allowed state.size state (pathSegmentsUpTo fuel) fun segments _ =>
      ∀ segment ∈ segments, allowed.name segment := by
  induction fuel generalizing state with
  | zero => exact Builds.pure sound (by simp)
  | succ fuel ih =>
    refine .pass (.start sound) fun isDot _ holding => ?_
    split
    · refine .name holding fun segment middle isAllowed holding => ?_
      refine .bind (ih middle holding.sound) holding.smaller ?_
      intro others after grows areAllowed
      refine .pure grows.sound ?_
      intro name member
      rcases List.mem_cons.mp member with rfl | later
      · exact isAllowed
      · exact areAllowed name later
    · exact .pure holding.sound (by simp)

/-- An import is a leaf; its path is made of allowed names. -/
theorem reads_importDeclaration : Reads allowed .importEntry importDeclaration := by
  intro state sound
  refine .ask ?_
  refine .pass (.start sound) fun _ _ holding => ?_
  refine .name holding fun first middle firstAllowed holding => ?_
  refine .ask ?_
  refine .bind (builds_pathSegmentsUpTo _ middle holding.sound) holding.smaller ?_
  intro others _ grows othersAllowed
  have holding := holding.grow grows
  have pathAllowed : ∀ segment ∈ first :: others, allowed.name segment := by
    simpa using ⟨firstAllowed, othersAllowed⟩
  have rest : ∀ (chosenName : Option String) after,
      (∀ name ∈ chosenName, allowed.name name) →
      Holding allowed state.size [] after →
      Builds allowed state.size after
        (do
          let range ← ask (·.rangeFrom state.current.range)
          terminator
          make (.importDecl ⟨first :: others⟩ chosenName) range)
        fun id => Held state.size [⟨.importEntry, id⟩] := by
    intro chosenName after chosenAllowed holding
    have isRange := holding.sound.rangeFrom sound.current
    refine .ask ?_
    refine .pass holding fun _ _ holding => ?_
    refine builds_make _ holding rfl ?_ isRange
    intro name member
    rcases List.mem_cons.mp member with isLast | inPath
    · rw [isLast, ModulePath.last, List.getLastD_cons]
      exact pathAllowed _ (List.getLastD_mem_cons)
    · rcases List.mem_append.mp inPath with inSegments | isChosen
      · exact pathAllowed name inSegments
      · exact chosenAllowed name (Option.mem_toList.mp isChosen)
  refine .pass holding fun isAs _ holding => ?_
  split
  · refine .name holding fun chosen after isAllowed holding => ?_
    exact rest (some chosen) after (by simpa using isAllowed) holding
  · exact rest none _ (by simp) holding

theorem reads_classMember :
    Reads allowed .member (classMember inner) := by
  intro state sound
  refine .ask ?_
  split
  · exact phrases.declaration state sound
  · exact phrases.declaration state sound
  · exact phrases.declaration state sound
  · exact builds_refuse sound (by simp)

/-- A class holds its parameters and its members. -/
theorem reads_classDeclaration :
    Reads allowed .declaration (classDeclaration inner) := by
  intro state sound
  refine .ask ?_
  refine .pass (.start sound) fun _ _ holding => ?_
  refine .name holding fun declared _ isAllowed holding => ?_
  refine .take holding readsList_parameters fun found _ holding => ?_
  have names : ∀ members, ∀ name ∈ (Node.classDecl declared found members).names,
      allowed.name name := by
    simpa using isAllowed
  refine .pass holding fun hasBody after holding => ?_
  split
  · rw [deeper_statements]
    refine .take holding (.deeper (readsList_statements reads_classMember)) ?_
    intro members _ holding
    refine .pass holding fun _ _ holding => ?_
    exact builds_makeFrom .declaration holding rfl (names members) sound.current
  · have empty : Holding allowed state.size (Node.classDecl declared found []).slots after := by
      simpa [Node.slots] using holding
    exact builds_makeFrom .declaration empty rfl (names []) sound.current

/-- The places that the contents of a file fill. -/
def Contents.slots (contents : Contents) : List Slot :=
  contents.imports.map (.mk .importEntry) ++
    contents.declarations.map (.mk .declaration)

/-- An import or a declaration is added to the contents. -/
theorem builds_topLevel {base : Nat}
    (holding : Holding allowed base before.slots state) :
    Builds allowed state.size state (topLevel inner before) fun contents =>
      Held base contents.slots := by
  obtain ⟨sound, smaller, held⟩ := holding
  have addsDeclaration : ∀ {reader}, Reads allowed .declaration reader →
      Builds allowed state.size state
        (do
          let node ← reader
          return { before with declarations := before.declarations ++ [node] })
        fun contents : Contents => Held base contents.slots := by
    intro reader reads
    refine .bind (reads state sound) (Nat.le_refl _) fun node after grows new => ?_
    refine .pure grows.sound ?_
    simpa [Contents.slots] using held.append grows new smaller
  have readsDeclaration : Reads allowed .declaration (declaration inner) :=
    reads_declaration (fun _ _ _ _ => rfl) fun _ _ _ _ => rfl
  refine .ask ?_
  split
  · refine .bind (reads_importDeclaration state sound) (Nat.le_refl _) ?_
    intro node after grows new
    split
    · next isFirst =>
        have isEmpty : before.declarations = [] := List.isEmpty_iff.mp isFirst
        refine .pure grows.sound ?_
        simpa [Contents.slots, isEmpty] using held.append grows new smaller
    · have inside := new.lt_size (List.mem_singleton_self _)
      refine .bind (builds_note grows.sound (by simp) inside)
        grows.size_le fun _ last noted _ => ?_
      exact .pure noted.sound ((held.grow grows).grow noted)
  · exact addsDeclaration readsDeclaration
  · exact addsDeclaration readsDeclaration
  · exact addsDeclaration readsDeclaration
  · exact addsDeclaration reads_classDeclaration
  · exact builds_refuse sound (by simp)

instance quiet_recover {left : Nat} : Quiet allowed (recover left) := by
  refine ⟨fun state sound => ?_⟩
  refine .pass (.start sound) fun _ _ holding => ?_
  refine .pass holding fun _ _ holding => ?_
  exact .done holding

/-- The contents grow until the tokens or the fuel end. -/
theorem builds_contentsUpTo {base : Nat} (fuel : Nat)
    (holding : Holding allowed base before.slots state) :
    Builds allowed base state (contentsUpTo inner fuel before) fun contents =>
      Held base contents.slots := by
  induction fuel generalizing state before with
  | zero => exact Builds.done holding
  | succ fuel ih =>
    refine .ask ?_
    split
    · exact .done holding
    · refine .ask ?_
      refine .bind (builds_attempt (builds_topLevel holding)) holding.smaller ?_
      intro answer middle grows found
      cases answer with
      | none =>
        refine .pass (holding.grow grows) fun _ _ holding => ?_
        exact ih holding
      | some contents =>
        have smaller := Nat.le_trans holding.smaller grows.size_le
        exact ih ⟨grows.sound, smaller, found contents rfl⟩

theorem total_recover {left : Nat} : Total (recover left) :=
  Total.bind Total.synchronise fun _ => .bind Total.eat fun _ => .pure

theorem total_contentsUpTo (fuel : Nat) (before : Contents) :
    Total (contentsUpTo inner fuel before) := by
  induction fuel generalizing before with
  | zero => exact Total.pure
  | succ fuel ih =>
    refine .bind Total.ask fun finished => ?_
    split
    · exact .pure
    · refine .bind Total.ask fun left => .bind Total.attempt fun answer => ?_
      split
      · exact ih _
      · exact .bind total_recover fun _ => ih before

/-- Reading a file always gives a node. -/
theorem total_sourceFile : Total (sourceFile inner) := by
  refine .bind Total.ask fun start => .bind Total.ask fun left => ?_
  refine .bind (total_contentsUpTo left _) fun contents => ?_
  split
  · exact .bind Total.ask fun _ => .make
  · exact .bind Total.ask fun _ => .make

/-- The last node is the file, and it holds all that was read. -/
theorem builds_sourceFile (sound : state.Sound allowed) :
    Builds allowed state.size state (sourceFile inner) fun id after =>
      id + 1 = after.size ∧
        ∃ imports declarations, after.arena.node? id = some (.sourceFile imports declarations) := by
  have makes : ∀ (contents : Contents) range after,
      Holding allowed state.size contents.slots after → allowed.range range →
      Builds allowed state.size after
        (make (.sourceFile contents.imports contents.declarations) range) fun id final =>
        id + 1 = final.size ∧
          ∃ imports declarations,
            final.arena.node? id = some (.sourceFile imports declarations) := by
    intro contents range after holding isRange
    refine ⟨grows_make holding (by simp) isRange, ?_⟩
    intro id made
    obtain rfl : after.arena.nodes.size = id := Option.some.inj made
    refine ⟨?_, contents.imports, contents.declarations, node?_make made⟩
    simp [make, ParseState.size]
  refine .ask (.ask ?_)
  have nothing : Holding allowed state.size (Contents.slots ⟨[], []⟩) state :=
    Holding.start sound
  refine .replace (builds_contentsUpTo _ nothing) (Nat.le_refl _) ?_
  intro contents after holding
  split
  · exact .ask (makes contents _ after holding holding.sound.current)
  · exact .ask (makes contents _ after holding (holding.sound.rangeFrom sound.current))

end Grammar

def Token.AllowedNames (allowed : String → Prop) (tokens : List Token) : Prop :=
  ∀ token ∈ tokens, token.kind = .identifier → allowed (token.value.getD token.raw)

variable {tokens : List Token}

theorem Item.mem_of_mem_significant {broken : Bool} {item : Item}
    (member : item ∈ (Item.significant broken tokens).1) : item.token ∈ tokens := by
  induction tokens generalizing broken with
  | nil => simp [Item.significant] at member
  | cons token rest ih =>
    unfold Item.significant at member
    split at member
    · exact List.mem_cons_of_mem _ (ih member)
    · exact List.mem_cons_of_mem _ (ih member)
    · exact List.mem_cons_of_mem _ (ih member)
    · simp at member
    · rcases List.mem_cons.mp member with rfl | later
      · exact List.mem_cons_self
      · exact List.mem_cons_of_mem _ (ih later)

/-- Tokens with allowed names and ranges, the range at their end among them. -/
structure Token.Allowed (allowed : Allowance) (tokens : List Token) : Prop where
  names : AllowedNames allowed.name tokens
  ranges : ∀ token ∈ tokens, allowed.range token.range
  finish : allowed.range (.point (Item.finishPosition tokens))

theorem Token.AllowedNames.allowed {allowed : String → Prop} (names : AllowedNames allowed tokens) :
    Token.Allowed ⟨allowed, fun _ => True, trivial, fun _ _ => trivial⟩ tokens :=
  ⟨names, fun _ _ => trivial, trivial⟩

/-- Before anything is read the store is empty, and so it is proper. -/
theorem ParseState.sound_start {allowed : Allowance} (fits : Token.Allowed allowed tokens) :
    (ParseState.start tokens).Sound allowed := by
  refine ⟨Arena.proper_empty allowed.name, by simp [ParseState.start, Arena.empty], ?_, rfl,
    allowed.origin, by simp [ParseState.start]⟩
  refine List.forall_mem_cons.mpr ⟨⟨fits.finish, by simp [ParseState.start, Item.kind]⟩, ?_⟩
  intro item member
  have isToken := Item.mem_of_mem_significant member
  exact ⟨fits.ranges item.token isToken, fits.names item.token isToken⟩

/-- What parsing gives: the file that was read, and the state after it. -/
theorem SyntaxTree.parse_spec {allowed : Allowance} (fits : Token.Allowed allowed tokens) :
    ∃ state : ParseState,
      state.Sound allowed ∧
        (SyntaxTree.parse tokens).tree.arena = state.arena ∧
        (SyntaxTree.parse tokens).diagnostics = state.diagnostics ∧
        (SyntaxTree.parse tokens).tree.root + 1 = state.size ∧
        ∃ imports declarations,
          state.arena.node? (SyntaxTree.parse tokens).tree.root =
            some (.sourceFile imports declarations) := by
  have builds :=
    @Grammar.builds_sourceFile _ (.upTo maxNesting) _ _ (ParseState.sound_start fits)
  have total : Parse.Total (Grammar.sourceFile (.upTo maxNesting)) := Grammar.total_sourceFile
  obtain ⟨root, state, result⟩ := total (.start tokens)
  have grows := builds.grows
  have answers := builds.answers
  rw [result] at grows answers
  refine ⟨state, grows.sound, ?_, ?_, ?_⟩
  · simp [SyntaxTree.parse, result]
  · simp [SyntaxTree.parse, result]
  · simpa [SyntaxTree.parse, result] using answers root rfl

/-- Whatever the tokens are, the tree is proper. -/
theorem SyntaxTree.parse_proper {allowed : String → Prop}
    (names : Token.AllowedNames allowed tokens) :
    (SyntaxTree.parse tokens).tree.Proper allowed := by
  obtain ⟨state, sound, sameArena, _, _, root⟩ := SyntaxTree.parse_spec names.allowed
  refine ⟨?_, ?_⟩
  · rw [sameArena]
    exact sound.arena
  · rw [sameArena]
    exact root

/-- A fault of parsing is in the text or at a node of the tree. -/
theorem SyntaxTree.parse_inText (tokens : List Token) :
    ∀ diagnostic ∈ (SyntaxTree.parse tokens).diagnostics,
      diagnostic.InText (SyntaxTree.parse tokens).tree.arena.locations.size := by
  have names : Token.AllowedNames (fun _ => True) tokens := fun _ _ _ => trivial
  obtain ⟨state, sound, sameArena, sameDiagnostics, _⟩ := SyntaxTree.parse_spec names.allowed
  rw [sameArena, sameDiagnostics, sound.arena.located]
  exact fun diagnostic member => (sound.diagnostics diagnostic member).1

theorem SyntaxTree.parse_located (tokens : List Token) :
    ∀ diagnostic ∈ (SyntaxTree.parse tokens).diagnostics,
      diagnostic.Located (SyntaxTree.parse tokens).tree.arena.locations.size :=
  fun diagnostic member => (parse_inText tokens diagnostic member).located

end Toolshed
