import MessageCatalog.Text.Basic

/-!
# Bracketed notations

Lists and records are written between brackets. This module folds a row of tokens by its brackets:
an opening bracket begins a level, and the closing one turns the pieces of its level into one piece
of the level around it. What the brackets are, and what the pieces of a level mean, is up to the
notation.
-/

namespace MessageCatalog.Brackets

/-- A token of a bracketed notation. -/
inductive Token (β π : Type) where
  | opening (bracket : β)
  | closing (bracket : β)
  | piece (piece : π)

/-- A level whose bracket is open, with its pieces so far, the latest first. The outermost level has
no bracket. -/
structure Level (β π : Type) where
  bracket : Option β
  pieces : List π

variable {β π : Type}

/-- The parts between separators. -/
def parts (isSeparator : π → Bool) (pieces : List π) : List (List π) := pieces.splitOnP isSeparator

/-- Take one more piece to a level. -/
def Level.add (level : Level β π) (piece : π) : Level β π :=
  { level with pieces := piece :: level.pieces }

variable [DecidableEq β]

/-- Take one more token; the levels are the open ones, the innermost first. -/
def step (build : β → List π → Option π) :
    List (Level β π) → Token β π → Option (List (Level β π))
  | levels, .opening bracket => some (⟨some bracket, []⟩ :: levels)
  | level :: outer :: levels, .closing bracket =>
    if level.bracket = some bracket then
      (build bracket level.pieces.reverse).map fun piece => outer.add piece :: levels
    else none
  | level :: levels, .piece piece => some (level.add piece :: levels)
  | _, _ => none

/-- The pieces of the outermost level, when it is the only one that is open. -/
def outermost? : List (Level β π) → Option (List π)
  | [⟨none, pieces⟩] => some pieces.reverse
  | _ => none

/-- The pieces that a row of tokens leaves at the outermost level. -/
def fold? (build : β → List π → Option π) (tokens : List (Token β π)) : Option (List π) :=
  (tokens.foldlM (step build) [⟨none, []⟩]).bind outermost?

end MessageCatalog.Brackets
