import MessageCatalog.Text.Basic
import MessageCatalog.Text.Printable

/-!
# Quoted texts

A text between double quotes, on one line. Quote, backslash and the usual control characters have
escapes of two characters; every other character that is not printable is written as its code point
in hexadecimal digits between braces.
-/

namespace MessageCatalog.Text

/-- The hexadecimal digits of a number, in small letters. -/
def hexadecimal (n : Nat) : Text := Nat.toDigits 16 n

/-- The characters that stand for one character inside quotes. -/
def escapeChar (c : Char) : Text :=
  if c = '"' then ['\\', '"']
  else if c = '\\' then ['\\', '\\']
  else if c = '\n' then ['\\', 'n']
  else if c = '\r' then ['\\', 'r']
  else if c = '\t' then ['\\', 't']
  else if c = '\x00' then ['\\', '0']
  else if isPrintable c then [c]
  else '\\' :: 'u' :: '{' :: hexadecimal c.toNat ++ ['}']

/-- The characters that stand for a text inside quotes. -/
def escape (t : Text) : Text := t.flatMap escapeChar

/-- A text between quotes. -/
def quote (t : Text) : Text := '"' :: escape t ++ ['"']

/-- A text between quotes, as a string. -/
def quoted (t : Text) : String := (quote t).str

/-- A list of quoted texts between brackets. -/
def quotedList (ts : List Text) : String := "[" ++ ", ".intercalate (ts.map quoted) ++ "]"

/-! ## Reading back -/

/-- The value of a hexadecimal digit. -/
def hexValue? (c : Char) : Option Nat :=
  let n := c.toNat
  if c.isDigit then some (n - 48)
  else if 97 ≤ n ∧ n ≤ 102 then some (n - 87)
  else if 65 ≤ n ∧ n ≤ 70 then some (n - 55)
  else none

/-- The number that a row of hexadecimal digits denotes. -/
def hexNumber? (digits : Text) : Option Nat :=
  digits.foldlM (fun n c => (hexValue? c).map fun d => 16 * n + d) 0

/-- The character that an escape of two characters stands for. -/
def simpleEscape? : Char → Option Char
  | 'n' => some '\n'
  | 'r' => some '\r'
  | 't' => some '\t'
  | '0' => some '\x00'
  | '\\' => some '\\'
  | '"' => some '"'
  | _ => none

/-- The character with a code point written in one to six hexadecimal digits. -/
def codePoint? (digits : Text) : Option Char :=
  if digits = [] ∨ 6 < digits.length then none
  else (hexNumber? digits).bind fun n => if n.isValidChar then some (Char.ofNat n) else none

/-- What follows a brace is shorter than the text in which the brace stands. -/
theorem length_after_brace {t after : Text} {c : Char} (h : t.dropWhile (· != '}') = c :: after) :
    after.length < t.length := by
  have hsuffix : t.dropWhile (· != '}') <:+ t := List.dropWhile_suffix _
  have hle := hsuffix.length_le
  simp only [h, List.length_cons] at hle
  omega

/-- The text that stands inside quotes; `none` when a quote is not escaped, a line break stands in
it, or an escape is unknown. -/
def unescape? (t : Text) : Option Text :=
  match t with
  | [] => some []
  | '\\' :: 'u' :: '{' :: rest =>
    match hrest : rest.dropWhile (· != '}') with
    | [] => none
    | _ :: after => do
      have : after.length < rest.length := length_after_brace hrest
      let d ← codePoint? (rest.takeWhile (· != '}'))
      (unescape? after).map (d :: ·)
  | '\\' :: c :: rest => do
    let d ← simpleEscape? c
    (unescape? rest).map (d :: ·)
  | c :: rest =>
    if c = '\\' ∨ c = '"' ∨ c = '\n' ∨ c = '\r' then none else (unescape? rest).map (c :: ·)
termination_by t.length

/-- The text between quotes. -/
def unquote? : Text → Option Text
  | '"' :: rest => (stripSuffix? ['"'] rest).bind unescape?
  | _ => none

end MessageCatalog.Text
