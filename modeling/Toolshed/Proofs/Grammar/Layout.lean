import Toolshed.Proofs.Grammar.Parallel

namespace Toolshed

/-!
# Layout does not matter

A file is read in the same way however its tokens are laid out.
-/

namespace Token

def Between (tokens : List Token) : Prop :=
  ∀ token ∈ tokens, token.kind ∈ [.whitespace, .comment, .unrecognised]

instance (tokens : List Token) : Decidable (Between tokens) :=
  inferInstanceAs (Decidable (∀ token ∈ tokens, _))

/-- Gaps between tokens that both have a line break, or neither has. -/
structure SameGap (gap other : List Token) : Prop where
  left : Between gap
  right : Between other
  breaks : gap.any breaksLine = other.any breaksLine

/--
Tokens in two layouts: up to the first `finish` the items agree in what they are,
and in whether a line break stands before them.
-/
inductive Relaid : List Token → List Token → Prop where
  | done {gap other rest otherRest : List Token} :
      SameGap gap other →
      (∀ token ∈ rest.head?, token.kind = .finish) →
      (∀ token ∈ otherRest.head?, token.kind = .finish) →
      Relaid (gap ++ rest) (other ++ otherRest)
  | item {gap other rest otherRest : List Token} {token made : Token} :
      SameGap gap other →
      token.sense = made.sense →
      token.kind ∉ [.whitespace, .comment, .unrecognised, .finish] →
      Relaid rest otherRest →
      Relaid (gap ++ token :: rest) (other ++ made :: otherRest)

end Token

/-- Two readings that differ only in ranges. -/
structure Parsed.Same (left right : Parsed) : Prop where
  nodes : left.tree.arena.nodes = right.tree.arena.nodes
  root : left.tree.root = right.tree.root
  success : left.success = right.success
  diagnostics : left.diagnostics.map Diagnostic.sense = right.diagnostics.map Diagnostic.sense

namespace Item

def senses (broken : Bool) (tokens : List Token) :
    List ((TokenKind × String × Option String) × Bool) × Bool :=
  (significant broken tokens).map (List.map sense) id

variable {tokens made gap other : List Token}

theorem significant_between (between : Token.Between gap) (broken : Bool) (after : List Token) :
    significant broken (gap ++ after) = significant (broken || gap.any Token.breaksLine) after := by
  induction gap generalizing broken with
  | nil => simp
  | cons token rest ih =>
    obtain ⟨isBetween, others⟩ := List.forall_mem_cons.mp between
    simp only [List.mem_cons, List.not_mem_nil, or_false] at isBetween
    rw [List.cons_append, significant, List.any_cons, ← Bool.or_assoc]
    rcases isBetween with kind | kind | kind <;> simp only [ih others] <;>
      simp [kind]

theorem significant_of_finish (ends : ∀ token ∈ tokens.head?, token.kind = .finish)
    (broken : Bool) : significant broken tokens = ([], broken) := by
  cases tokens with
  | nil => rfl
  | cons token rest => simp [significant, ends token rfl]

theorem significant_item {token : Token}
    (isItem : token.kind ∉ [.whitespace, .comment, .unrecognised, .finish]) (broken : Bool)
    (rest : List Token) :
    significant broken (token :: rest) =
      (significant false rest).map (List.cons ⟨token, broken⟩) id := by
  rw [significant]
  split <;> simp_all [Prod.map]

theorem significant_append_congr
    (same : ∀ broken, significant broken tokens = significant broken made) (before : List Token)
    (broken : Bool) :
    significant broken (before ++ tokens) = significant broken (before ++ made) := by
  induction before generalizing broken with
  | nil => exact same broken
  | cons token rest ih => simp only [List.cons_append, significant, ih]

theorem senses_eq_of_relaid (relaid : Token.Relaid tokens made) (broken : Bool) :
    senses broken tokens = senses broken made := by
  induction relaid generalizing broken with
  | done same ends otherEnds =>
    simp only [senses, significant_between same.left, significant_between same.right,
      same.breaks, significant_of_finish ends, significant_of_finish otherEnds]
  | @item _ _ _ _ token made same senses isItem _ ih =>
    have kind : token.kind = made.kind := congrArg Prod.fst senses
    have rest := ih false
    simp only [Item.senses, Prod.map, Prod.mk.injEq, id] at rest
    simp only [Item.senses, significant_between same.left, significant_between same.right,
      same.breaks, significant_item isItem, significant_item (kind ▸ isItem), Prod.map,
      List.map_cons, sense, senses, rest]

end Item

variable {left right : List Token}

theorem ParseState.alike_start (same : Item.senses false left = Item.senses false right) :
    (start left).Alike [] [] (start right) := by
  obtain ⟨items, broken⟩ := Prod.ext_iff.mp same
  have finish : (start left).finish.sense = (start right).finish.sense :=
    congrArg (Prod.mk _) broken
  exact ⟨items, finish, rfl, ⟨[], [], rfl, rfl, rfl⟩, rfl⟩

theorem SyntaxTree.same_parse (same : Item.senses false left = Item.senses false right) :
    (parse left).Same (parse right) := by
  obtain ⟨roots, states⟩ := (inferInstance :
    Parse.Uniform (Grammar.sourceFile (.upTo maxNesting))).alike (ParseState.alike_start same)
  obtain ⟨found, made, isFound, isMade, senses⟩ := states.diagnostics
  have diagnostics : (parse left).diagnostics.map Diagnostic.sense =
      (parse right).diagnostics.map Diagnostic.sense := by
    simpa [parse, isFound, isMade] using senses
  refine ⟨states.nodes, ?_, ?_, diagnostics⟩
  · simp only [parse]
    generalize (Grammar.sourceFile _ (.start left)).1 = root,
      (Grammar.sourceFile _ (.start right)).1 = madeRoot at roots
    cases roots with
    | none => rfl
    | some same => exact same
  · have empty := congrArg List.isEmpty diagnostics
    rwa [List.isEmpty_map, List.isEmpty_map] at empty

/--
Reading a file gives the same nodes, root and diagnostics for any layout of its
tokens. In particular, what stands between two tokens can be replaced as long as
there still is a line break, or still is none.
-/
theorem SyntaxTree.parse_layout :
    (∀ left right, Token.Relaid left right → (parse left).Same (parse right)) ∧
      ∀ before gap other after,
        Token.SameGap gap other →
        (parse (before ++ (gap ++ after))).Same (parse (before ++ (other ++ after))) := by
  refine ⟨fun left right relaid => same_parse (Item.senses_eq_of_relaid relaid false),
    fun before gap other after same => same_parse ?_⟩
  have gaps (broken : Bool) :
      Item.significant broken (gap ++ after) = Item.significant broken (other ++ after) := by
    rw [Item.significant_between same.left, Item.significant_between same.right, same.breaks]
  rw [Item.senses, Item.senses, Item.significant_append_congr gaps]

/-- A comment between two tokens of one line, and a further line break at the end. -/
theorem SyntaxTree.parse_layout_comment :
    let token (kind : TokenKind) (raw : String) : Token := ⟨kind, raw, none, .point .origin⟩
    let left :=
      [token (.keyword .letWord) "let", token .whitespace " ", token .identifier "x",
        token .whitespace "\n", token .finish ""]
    let right :=
      [token (.keyword .letWord) "let", token .comment "/* x */", token .identifier "x",
        token .comment "// y", token .whitespace "\n\n", token .finish ""]
    Token.Relaid left right ∧ (parse left).Same (parse right) := by
  intro token left right
  have relaid : Token.Relaid left right := by
    refine @Token.Relaid.item [] [] _ _ _ _ ⟨by decide, by decide, rfl⟩ rfl (by decide) ?_
    refine @Token.Relaid.item [token .whitespace " "] [token .comment "/* x */"] _ _ _ _
      ⟨by decide, by decide, by decide⟩ rfl (by decide) ?_
    exact @Token.Relaid.done [token .whitespace "\n"]
      [token .comment "// y", token .whitespace "\n\n"] _ _ ⟨by decide, by decide, by decide⟩
      (by decide) (by decide)
  exact ⟨relaid, parse_layout.1 left right relaid⟩

end Toolshed
