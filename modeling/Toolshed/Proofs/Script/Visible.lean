import Toolshed.Lowering.Module

namespace Toolshed

/-!
# Scripts that can be seen

The text of a statement is never blank, and a level keeps every statement that
declares a name or has an effect of its own.
-/

namespace Script

variable {body : List Statement} {statement : Statement}

def Piece.Visible : Piece → Prop
  | .text characters => ∃ character ∈ characters.toList, Blank.isBlank character = false
  | _ => False

def Shows (pieces : List Piece) : Prop :=
  ∃ piece ∈ pieces, piece.Visible

namespace Shows

variable {piece : Piece} {before after pieces : List Piece}

theorem head (visible : piece.Visible) : Shows (piece :: pieces) :=
  ⟨piece, List.mem_cons_self, visible⟩

theorem right (shows : Shows after) : Shows (before ++ after) := by
  obtain ⟨piece, member, visible⟩ := shows
  exact ⟨piece, List.mem_append_right before member, visible⟩

theorem left (shows : Shows before) : Shows (before ++ after) := by
  obtain ⟨piece, member, visible⟩ := shows
  exact ⟨piece, List.mem_append_left after member, visible⟩

theorem not_allBlank (shows : Shows pieces) (layout : Layout) (rest : String) :
    Blank.allBlank (Piece.readAll layout pieces ++ rest) = false := by
  obtain ⟨piece, member, visible⟩ := shows
  cases piece with
  | text characters =>
    obtain ⟨character, inside, notBlank⟩ := visible
    have isRead : character ∈ (Piece.readAll layout pieces).toList := by
      simp only [Piece.readAll, String.toList_join, List.mem_flatMap, List.mem_map]
      exact ⟨_, ⟨_, member, rfl⟩, inside⟩
    simp only [Blank.allBlank, String.toList_append, List.all_eq_false, List.mem_append]
    exact ⟨character, .inl isRead, by simp [notBlank]⟩
  | blank | thin | line => exact visible.elim

end Shows

theorem shows_braced (depth : Nat) (statements : List (List Piece)) :
    Shows (braced depth statements) := by
  unfold braced
  split
  · exact .head ⟨_, List.mem_cons_self, by decide⟩
  · exact .left (.left (.head ⟨_, List.mem_cons_self, by decide⟩))

theorem Function.shows_pieces (depth : Nat) (function : Function) :
    Shows (function.pieces depth) := by
  obtain ⟨name, parameters, body⟩ := function
  exact .right (shows_braced _ _)

theorem Statement.shows_pieces (depth : Nat) (statement : Statement) :
    Shows (statement.pieces depth) := by
  cases statement with
  | «variable» kind name initial =>
    exact .right (.head ⟨';', by simp, by decide⟩)
  | function function =>
    exact function.shows_pieces depth
  | returnNothing =>
    exact .head ⟨';', by simp, by decide⟩
  | returnValue value =>
    exact .right (.head ⟨';', by simp, by decide⟩)
  | conditional condition thenBody elseBody =>
    exact .left (.right (shows_braced _ _))
  | loop condition body =>
    exact .right (shows_braced _ _)
  | block body =>
    exact shows_braced _ _
  | expression expression =>
    exact .right (.head ⟨';', by simp, by decide⟩)

theorem not_allBlank_render (layout : Layout) (nonempty : body ≠ []) :
    Blank.allBlank (render layout body) = false := by
  obtain ⟨first, rest, rfl⟩ := List.exists_cons_of_ne_nil nonempty
  have shows : Shows (onLines 0 (statementPieces 0 (first :: rest))) := by
    unfold statementPieces
    cases statementPieces 0 rest with
    | nil => exact first.shows_pieces 0
    | cons second more => exact .left (.left (first.shows_pieces 0))
  exact shows.not_allBlank layout "\n"

def Statement.Kept : Statement → Prop
  | .variable _ _ _ | .function _ | .expression _ => True
  | _ => False

theorem Statement.Kept.simplify_ne_nil (kept : statement.Kept) : statement.simplify ≠ [] := by
  cases statement with
  | «variable» | function | expression => simp [Statement.simplify]
  | returnNothing | returnValue | conditional | loop | block => exact kept.elim

theorem simplify_ne_nil (member : statement ∈ body) (kept : statement.Kept) :
    simplify body ≠ [] := by
  induction member with
  | head rest =>
    exact List.append_ne_nil_of_left_ne_nil kept.simplify_ne_nil _
  | tail first member ih =>
    exact List.append_ne_nil_of_right_ne_nil _ ih

end Script

theorem Level.apply_ne_nil (level : Level) {body : List Script.Statement}
    {statement : Script.Statement} (member : statement ∈ body) (kept : statement.Kept) :
    level.apply body ≠ [] := by
  cases level with
  | none => exact List.ne_nil_of_mem member
  | simple => exact Script.simplify_ne_nil member kept

end Toolshed
