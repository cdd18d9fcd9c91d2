import MessageCatalog.Text.Lines
import MessageCatalog.Text.Quoted

/-!
# Property files

A property file holds one entry per line: a key, a separator and a value. Blank lines and lines that
begin with `#` or `!` are passed over. A line that ends in an odd number of backslashes goes on with
the next line. A key ends at the first `=`, `:` or pad outside escapes; pads around the separator do
not belong to key or value. All entries are kept, in file order.
-/

namespace MessageCatalog.Properties

open Text

/-- The characters that may stand around keys and separators. -/
def isPad (c : Char) : Bool := c == ' ' || c == '\t' || c == '\x0c'

/-- Drop the pads at the start. -/
def dropPads (t : Text) : Text := t.dropWhile isPad

/-! ## Section 1: Logical lines -/

/-- Whether a line goes on with the next one: it ends in an odd number of backslashes. -/
def continues (line : Text) : Bool := (line.reverse.takeWhile (· == '\\')).length % 2 == 1

/-- A line together with the lines that continue it, and the lines after those. -/
def joinContinued : (line : Text) → (rest : List Text) → Text × List Text
  | line, [] => (if continues line then line.dropLast else line, [])
  | line, next :: rest =>
    if continues line then joinContinued (line.dropLast ++ dropPads next) rest
    else (line, next :: rest)

/-- The lines after a logical line are some of those before. -/
theorem joinContinued_length (line : Text) (rest : List Text) :
    (joinContinued line rest).2.length ≤ rest.length := by
  induction rest generalizing line with
  | nil => simp [joinContinued]
  | cons next rest ih =>
    unfold joinContinued
    split
    · have := ih (line.dropLast ++ dropPads next)
      simp only [List.length_cons]
      omega
    · exact Nat.le_refl _

/-- A line without an entry: nothing, or a comment. -/
def isPassedOver (line : Text) : Bool :=
  line.isEmpty || line.head? == some '#' || line.head? == some '!'

/-- The logical lines that hold entries, without the pads before them. -/
def logicalLines (lines : List Text) : List Text :=
  match lines with
  | [] => []
  | raw :: rest =>
    if isPassedOver (dropPads raw) then logicalLines rest
    else
      have := joinContinued_length (dropPads raw) rest
      (joinContinued (dropPads raw) rest).1 :: logicalLines (joinContinued (dropPads raw) rest).2
termination_by lines.length

/-! ## Section 2: Keys and values -/

/-- Split a line before the first separator or pad outside escapes. -/
def takeKey : (escaped : Bool) → Text → Text × Text
  | _, [] => ([], [])
  | true, c :: cs =>
    let (key, rest) := takeKey false cs
    (c :: key, rest)
  | false, c :: cs =>
    if c = '=' ∨ c = ':' ∨ isPad c then ([], c :: cs)
    else
      let (key, rest) := takeKey (c == '\\') cs
      (c :: key, rest)

/-- The value after the key: what follows the separator and the pads around it. -/
def dropSeparator (rest : Text) : Text :=
  match dropPads rest with
  | c :: cs => if c = '=' ∨ c = ':' then dropPads cs else c :: cs
  | [] => []

/-- The character of a four-digit code unit; one that is no character has the replacement character
in its stead. -/
def unitChar (unit : Nat) : Char := if unit.isValidChar then Char.ofNat unit else '\ufffd'

/-- The code unit that a text begins with: four hexadecimal digits. -/
def takeUnit? : Text → Option (Nat × Text)
  | a :: b :: c :: d :: rest => (hexNumber? [a, b, c, d]).map (·, rest)
  | _ => none

/-- The first half of a pair of code units. -/
def isHighUnit (unit : Nat) : Bool := decide (0xD800 ≤ unit ∧ unit ≤ 0xDBFF)

/-- The second half of a pair of code units. -/
def isLowUnit (unit : Nat) : Bool := decide (0xDC00 ≤ unit ∧ unit ≤ 0xDFFF)

/-- The second half that a text begins with, written as an escape. -/
def takeLowUnit? : Text → Option (Nat × Text)
  | '\\' :: 'u' :: rest => (takeUnit? rest).filter fun (unit, _) => isLowUnit unit
  | _ => none

/-- The character after `\u`, and the rest: four digits, or a pair of code units with both halves
escaped; without digits it is the letter itself. -/
def takeUnicode (rest : Text) : Char × Text :=
  match takeUnit? rest with
  | none => ('u', rest)
  | some (unit, after) =>
    if isHighUnit unit then
      -- half a pair is no character
      match takeLowUnit? after with
      | some (low, after) => (Char.ofNat (0x10000 + (unit - 0xD800) * 0x400 + (low - 0xDC00)), after)
      | none => ('\ufffd', after)
    else (unitChar unit, after)

/-- The character that an escape letter stands for. -/
def escapeLetter : Char → Char
  | 't' => '\t'
  | 'n' => '\n'
  | 'r' => '\r'
  | 'f' => '\x0c'
  | c => c

/-- A code unit takes four characters of the text. -/
theorem takeUnit?_length {t rest : Text} {unit : Nat} (h : takeUnit? t = some (unit, rest)) :
    rest.length + 4 = t.length := by
  unfold takeUnit? at h
  split at h
  · obtain ⟨_, _, he⟩ := Option.map_eq_some_iff.1 h
    simp only [Prod.mk.injEq] at he
    simp [← he.2]
  · simp at h

/-- An escaped character takes nothing that is not there. -/
theorem takeUnicode_length (rest : Text) : (takeUnicode rest).2.length ≤ rest.length := by
  unfold takeUnicode
  split
  · exact Nat.le_refl _
  · rename_i unit after hu
    have := takeUnit?_length hu
    split
    · split
      · rename_i low after' hl
        unfold takeLowUnit? at hl
        split at hl
        · have := takeUnit?_length (Option.filter_eq_some_iff.1 hl).1
          simp only [List.length_cons] at *
          omega
        · simp at hl
      · simp only
        omega
    · simp only
      omega

/-- Resolve the escapes of a key or a value. A backslash at the end stands for nothing. -/
def unescape (t : Text) : Text :=
  match t with
  | [] => []
  | c :: cs =>
    if c ≠ '\\' then c :: unescape cs
    else
      match cs with
      | [] => []
      | e :: rest =>
        if e = 'u' then
          have := takeUnicode_length rest
          (takeUnicode rest).1 :: unescape (takeUnicode rest).2
        else escapeLetter e :: unescape rest
termination_by t.length

/-- The key and the value of a logical line. -/
def readEntry (line : Text) : Text × Text :=
  let (key, rest) := takeKey false line
  (unescape key, unescape (dropSeparator rest))

/-- The entries of a document, in file order. -/
def parse (content : Text) : List (Text × Text) := (logicalLines (lines content)).map readEntry

end MessageCatalog.Properties
