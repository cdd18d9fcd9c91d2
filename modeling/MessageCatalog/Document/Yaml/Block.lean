import MessageCatalog.Document.Yaml.Spot
import MessageCatalog.Text.Pieces

/-!
# YAML block scalars

A scalar after a bar or an angle bracket is the text of the lines below it, without their common
indentation. After a bar every line break stays; after an angle bracket a line break between two
lines that are not indented further is read as a blank. The signs `+` and `-` tell what becomes of
the line breaks at the end, and a digit gives the indentation.
-/

namespace MessageCatalog.Yaml

/-! ## Section 1: Headers -/

/-- What becomes of the line breaks at the end of a text: none stays, the one of the last line does,
or all do. -/
inductive Chomp where
  | strip
  | clip
  | keep
  deriving DecidableEq, Repr

/-- How a block scalar begins: what becomes of its end, and its indentation if that is given. -/
structure BlockHeader where
  chomp : Chomp
  indentation : Option Nat
  deriving DecidableEq, Repr

/-- The sign that tells what becomes of the end, and the rest. -/
def takeChomp : List Spot → Option Chomp × List Spot
  | ⟨'+', _, _, _⟩ :: rest => (some .keep, rest)
  | ⟨'-', _, _, _⟩ :: rest => (some .strip, rest)
  | t => (none, t)

/-- The digit that gives the indentation, and the rest. -/
def takeIndentation : List Spot → Option Nat × List Spot
  | s :: rest =>
    if s.char.isDigit then (some (s.char.toNat - '0'.toNat), rest) else (none, s :: rest)
  | [] => (none, [])

/-- The header of a block scalar, and the lines after it. Sign and digit stand in any order. -/
def blockHeader? (t : List Spot) : Option (BlockHeader × List Spot) := do
  let (before, t) := takeChomp t
  let (indentation, t) := takeIndentation t
  let (after, t) := if before.isSome then (none, t) else takeChomp t
  if indentation = some 0 then none
  else return (⟨(before.or after).getD .clip, indentation⟩, ← endLine? t)

/-! ## Section 2: Lines -/

/-- Whether a column lies within an indentation. Every column does, as long as it is not known. -/
def inMargin (indentation : Option Nat) (column : Nat) : Bool := indentation.all (column < ·)

/-- The line breaks of the blank lines here, and the row after the indentation of the next line.
Gives also the greatest column that was reached. There must be no tab within the indentation. -/
def takeMargin? (indentation : Option Nat) (widest : Nat) :
    List Spot → Option (Text × Nat × List Spot)
  | [] => some ([], widest, [])
  | s :: rest =>
    let margin := inMargin indentation s.column
    if s.char = ' ' ∧ margin then takeMargin? indentation widest rest
    else if s.char = '\t' ∧ margin then none
    else if isBreak s.char then
      (takeMargin? indentation (max widest s.column) rest).map fun (breaks, rest) =>
        (s.char :: breaks, rest)
    else some ([], max widest s.column, s :: rest)

/-- A line of a block scalar: its text, its line break, and those of the blank lines after it. -/
structure BlockLine where
  text : Text
  ending : Text
  blanks : Text
  deriving DecidableEq, Repr

/-- The next line of a block scalar with a known indentation. -/
def blockLine? (indentation : Nat) : List Spot → Option (BlockLine × List Spot)
  | [] => none
  | s :: rest =>
    if s.column = indentation then do
      let line := (s :: rest).takeWhile fun s => !isBreak s.char
      let after := dropLine (s :: rest)
      let (blanks, _, rest) ← takeMargin? (some indentation) 0 (after.drop 1)
      return (⟨text line, text (after.take 1), blanks⟩, rest)
    else none

/-! ## Section 3: Texts -/

/-- Whether a line is indented further than its block. -/
def isIndented (line : BlockLine) : Bool := line.text.head?.any isGap

/-- What stands between a line and the next one. -/
def between (literal : Bool) (line next : BlockLine) : Text :=
  if !literal ∧ line.ending = ['\n'] ∧ !isIndented line ∧ !isIndented next then
    if line.blanks = [] then [' '] else line.blanks
  else line.ending ++ line.blanks

/-- What stays of the line breaks after the last line. -/
def Chomp.ending (line : BlockLine) : Chomp → Text
  | .strip => []
  | .clip => line.ending
  | .keep => line.ending ++ line.blanks

/-- The text of some lines. -/
def joinLines (literal : Bool) (chomp : Chomp) : List BlockLine → Text
  | [] => []
  | [last] => last.text ++ chomp.ending last
  | line :: next :: rest =>
    line.text ++ between literal line next ++ joinLines literal chomp (next :: rest)

/-- A block scalar after its bar or angle bracket, and the rest of the row. The block around it
begins left of column `least`. An indentation that is not given is that of the first line; it
reaches to `least` at any rate. -/
def blockScalar? (literal : Bool) (least : Nat) (t : List Spot) : Option (Text × List Spot) := do
  let (header, t) ← blockHeader? t
  let (blanks, widest, t) ← takeMargin? (header.indentation.map (least - 1 + ·)) 0 t
  let indentation := match header.indentation with
    | some n => least - 1 + n
    | none => max widest (max least 1)
  let (lines, rest) := Text.takeWhile? (blockLine? indentation) t
  -- a line that stands there and is not taken has a tab in its indentation
  if rest.head?.any fun s => s.column = indentation then none
  else return (joinLines literal header.chomp (⟨[], [], blanks⟩ :: lines), rest)

end MessageCatalog.Yaml
