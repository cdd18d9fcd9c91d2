import MessageCatalog.Document.Yaml.Spot
import MessageCatalog.Text.Quoted

/-!
# YAML scalars

A scalar is plain or stands between quotes. It may go on over several lines: the blanks around a
line break do not count, a single line feed is read as a blank, and of several line breaks the first
one is dropped when it is a line feed.
-/

namespace MessageCatalog.Yaml

/-! ## Section 1: Gaps between words -/

/-- What stands between two words of a scalar: blanks, or a first line break and those after it. The
first one may be missing, where it is escaped. -/
inductive Gap where
  | blanks (t : Text)
  | breaks (first more : Text)
  deriving DecidableEq, Repr

namespace Gap

/-- No gap. -/
def none : Gap := .blanks []

/-- The gap after an escaped line break. -/
def escaped : Gap := .breaks [] []

/-- Whether a gap goes on to another line. -/
def isBroken : Gap → Bool
  | .blanks _ => false
  | .breaks _ _ => true

/-- Take one more character to a gap. The blanks around line breaks do not count. -/
def add (c : Char) : Gap → Gap
  | .blanks t => if isBreak c then .breaks [c] [] else .blanks (t ++ [c])
  | .breaks first more => if isBreak c then .breaks first (more ++ [c]) else .breaks first more

/-- The text that a gap stands for. -/
def fold : Gap → Text
  | .blanks t => t
  | .breaks first more =>
    if first = ['\n'] then (if more = [] then [' '] else more) else first ++ more

end Gap

/-! ## Section 2: Quoted scalars -/

/-- The character that an escape of two characters stands for. -/
def simpleEscape? : Char → Option Char
  | '0' => some '\x00'
  | 'a' => some '\x07'
  | 'b' => some '\x08'
  | 't' | '\t' => some '\t'
  | 'n' => some '\n'
  | 'v' => some '\x0b'
  | 'f' => some '\x0c'
  | 'r' => some '\r'
  | 'e' => some '\x1b'
  | ' ' => some ' '
  | '"' => some '"'
  | '/' => some '/'
  | '\\' => some '\\'
  | 'N' => some '\u0085'
  | '_' => some '\u00a0'
  | 'L' => some '\u2028'
  | 'P' => some '\u2029'
  | _ => none

/-- The number of hexadecimal digits after the letter of an escape. -/
def escapeWidth (letter : Char) : Nat :=
  if letter = 'x' then 2 else if letter = 'u' then 4 else if letter = 'U' then 8 else 0

/-- The character of a code point in `width` hexadecimal digits. -/
def codePoint? (width : Nat) (digits : Text) : Option Char := do
  let n ← Text.hexNumber? digits
  if digits.length = width ∧ n.isValidChar then some (Char.ofNat n) else none

/-- The character that an escape stands for, given its letter and the digits it would have. -/
def escape? (letter : Char) (digits : Text) : Option Char :=
  if escapeWidth letter = 0 then simpleEscape? letter else codePoint? (escapeWidth letter) digits

/-- Put a text in front of a reading. -/
def following (before : Text) : Text × List Spot → Text × List Spot
  | (t, rest) => (before ++ t, rest)

/-- The text of a scalar up to its closing quote, and the rest after it; `gap` is what stands before
the next word. Between single quotes a quote is written twice, and between double quotes a backslash
begins an escape. No document marker may stand between quotes. -/
def quotedFrom? (quote : Char) (gap : Gap) (t : List Spot) : Option (Text × List Spot) :=
  match t with
  | [] => none
  | s :: rest =>
    if atMarker t then none
    else if isGap s.char ∨ isBreak s.char then quotedFrom? quote (gap.add s.char) rest
    else if s.char = '\\' ∧ quote = '"' then
      match rest with
      | [] => none
      | letter :: rest =>
        if isBreak letter.char then (quotedFrom? quote .escaped rest).map (following gap.fold)
        else do
          let width := escapeWidth letter.char
          let c ← escape? letter.char (text (rest.take width))
          (quotedFrom? quote .none (rest.drop width)).map (following (gap.fold ++ [c]))
    else if s.char = quote then
      match rest with
      | next :: rest =>
        if quote = '\'' ∧ next.char = '\'' then
          (quotedFrom? quote .none rest).map (following (gap.fold ++ [quote]))
        else some (gap.fold, next :: rest)
      | [] => some (gap.fold, [])
    else (quotedFrom? quote .none rest).map (following (gap.fold ++ [s.char]))
termination_by t.length

/-! ## Section 3: Plain scalars -/

/-- The characters that begin something other than a plain scalar. -/
def indicators : List Char := "-?:,[]{}#&*!|>'\"%@`".toList

/-- The characters that end a plain scalar between brackets. -/
def flowIndicators : List Char := ",[]{}".toList

/-- Whether a plain scalar may begin here. A dash may, when no blank follows it; outside of brackets
a question mark and a colon may, when no gap follows them. -/
def startsPlain (inBrackets : Bool) : List Spot → Bool
  | [] => false
  | s :: rest =>
    if s.char = '-' then !(rest.head?.any fun next => isGap next.char)
    else if s.char = '?' ∨ s.char = ':' then !inBrackets && !atGap rest
    else !(isGap s.char || isBreak s.char || indicators.contains s.char)

/-- Whether a plain scalar ends before the next word: at a document marker, at a comment after a
gap, on a line to the left of column `least` outside of brackets, at a colon before a gap, and
between brackets at what divides their parts. -/
def endsPlain (inBrackets : Bool) (least : Nat) (gap : Gap) : List Spot → Bool
  | [] => true
  | s :: rest =>
    atMarker (s :: rest) || (s.char = '#' && gap ≠ .none) ||
      (gap.isBroken && !inBrackets && s.column < least) || (s.char = ':' && atGap rest) ||
      (inBrackets && flowIndicators.contains s.char)

/-- Whether a colon stands where it neither divides anything nor belongs to a word. -/
def strayColon (inBrackets : Bool) : List Spot → Bool
  | ⟨':', _, _, _⟩ :: next :: _ =>
    inBrackets && (next.char = '?' || flowIndicators.contains next.char)
  | _ => false

/-- The text of a plain scalar, whether the gap after it goes on to another line, and the rest of
the row after that gap. A tab must not stand for indentation before a further line. -/
def plainFrom? (inBrackets : Bool) (least : Nat) (gap : Gap) :
    List Spot → Option (Text × Bool × List Spot)
  | [] => some ([], gap.isBroken, [])
  | s :: rest =>
    if isGap s.char ∨ isBreak s.char then
      if gap.isBroken ∧ s.char = '\t' ∧ s.column < least then none
      else plainFrom? inBrackets least (gap.add s.char) rest
    else if endsPlain inBrackets least gap (s :: rest) then some ([], gap.isBroken, s :: rest)
    else if strayColon inBrackets (s :: rest) then none
    else
      (plainFrom? inBrackets least .none rest).map fun (t, rest) => (gap.fold ++ s.char :: t, rest)

end MessageCatalog.Yaml
