import MessageCatalog.Text.Basic

/-!
# Places in YAML texts

Where a character stands in a YAML text matters as much as what it is. A text is therefore read as a
row of characters that know their line and column, and how many bytes stand before them on the line.
-/

namespace MessageCatalog.Yaml

/-- A character, with the line and the column it stands in, and the bytes before it on its line. -/
structure Spot where
  char : Char
  line : Nat
  column : Nat
  offset : Nat
  deriving DecidableEq, Repr

/-! ## Section 1: Kinds of characters -/

/-- Whether a character may stand in a document. -/
def isAllowed (c : Char) : Bool :=
  let n := c.toNat
  c = '\t' || c = '\n' || c = '\r' || (0x20 ≤ n && n ≤ 0x7E) || n = 0x85 ||
    (0xA0 ≤ n && n ≤ 0xFFFD) || 0x10000 ≤ n

/-- A text with a line feed for every usual line break. Line and paragraph separators stay. -/
def normalizeBreaks : Text → Text
  | [] => []
  | '\r' :: '\n' :: rest => '\n' :: normalizeBreaks rest
  | c :: rest => (if c = '\r' ∨ c = '\u0085' then '\n' else c) :: normalizeBreaks rest

/-- Whether a character ends a line. -/
def isBreak (c : Char) : Bool := c = '\n' || c = '\u2028' || c = '\u2029'

/-- A blank within a line. -/
def isGap (c : Char) : Bool := c = ' ' || c = '\t'

/-- Whether a character may stand in a name of a document. -/
def isWordChar (c : Char) : Bool := c.isAlphanum || c = '_' || c = '-'

/-! ## Section 2: Rows of characters -/

/-- The row of a text that begins at a place. -/
def spotsFrom (line column offset : Nat) : Text → List Spot
  | [] => []
  | c :: rest =>
    ⟨c, line, column, offset⟩ ::
      (if isBreak c then spotsFrom (line + 1) 0 0 rest
      else spotsFrom line (column + 1) (offset + c.utf8Size) rest)

/-- The row of a text. -/
def spots (t : Text) : List Spot := spotsFrom 0 0 0 t

/-- The characters of a row. -/
def text (t : List Spot) : Text := t.map Spot.char

/-- Whether a row is over, or goes on with a blank or on another line. -/
def atGap : List Spot → Bool
  | [] => true
  | s :: _ => isGap s.char || isBreak s.char

/-- Whether a row begins with a marker: three times the same character at the beginning of a line,
and a gap. -/
def startsMarker (c : Char) : List Spot → Bool
  | first :: second :: third :: rest =>
    first.column = 0 && first.char = c && second.char = c && third.char = c && atGap rest
  | _ => false

/-- Whether a row begins with the marker of the start or the end of a document. -/
def atMarker (t : List Spot) : Bool := startsMarker '-' t || startsMarker '.' t

/-- Drop the blanks at the start. -/
def dropGaps (t : List Spot) : List Spot := t.dropWhile fun s => isGap s.char

/-- Drop the characters up to the next line break. -/
def dropLine (t : List Spot) : List Spot := t.dropWhile fun s => !isBreak s.char

/-- The lines after this one, on which only blanks and a comment may still stand. -/
def endLine? (t : List Spot) : Option (List Spot) :=
  let rest := match dropGaps t with
    | ⟨'#', _, _, _⟩ :: rest => dropLine rest
    | rest => rest
  match rest with
  | [] => some []
  | s :: rest => if isBreak s.char then some rest else none

/-- The row from its next content on: blanks, line breaks and comments are passed over. The flag
tells whether a key may begin there, as it may after a line break outside of brackets. A tab is no
indentation: where a key may begin it counts as content, unless brackets are open. -/
def nextContent (inBrackets : Bool) : (mayBeginKey inComment : Bool) → List Spot → Bool × List Spot
  | mayBeginKey, _, [] => (mayBeginKey, [])
  | mayBeginKey, inComment, s :: rest =>
    if isBreak s.char then nextContent inBrackets (mayBeginKey || !inBrackets) false rest
    else if inComment then nextContent inBrackets mayBeginKey true rest
    else if s.char = ' ' ∨ (s.char = '\t' ∧ (inBrackets ∨ !mayBeginKey)) then
      nextContent inBrackets mayBeginKey false rest
    -- a byte order mark may stand before a line
    else if s.char = '\ufeff' ∧ s.column = 0 then nextContent inBrackets mayBeginKey false rest
    else if s.char = '#' then nextContent inBrackets mayBeginKey true rest
    else (mayBeginKey, s :: rest)

end MessageCatalog.Yaml
