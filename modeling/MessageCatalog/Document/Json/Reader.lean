import MessageCatalog.Document.Brackets
import MessageCatalog.Document.Json.Basic
import MessageCatalog.Text.Pieces
import MessageCatalog.Text.Quoted

/-!
# Reading JSON

A JSON text is cut into tokens, which are then folded by their brackets.
-/

namespace MessageCatalog.Json

open Brackets

/-- The blanks between tokens. -/
def isGap (c : Char) : Bool := c = ' ' || c = '\n' || c = '\r' || c = '\t'

/-! ## Section 1: Numbers -/

/-- The rest of a text after a row of digits; `none` when there is no digit. -/
def dropDigits? (t : Text) : Option Text :=
  match t with
  | c :: rest => if c.isDigit then some (rest.dropWhile Char.isDigit) else none
  | [] => none

/-- The rest of a text after an exponent, if there is one. -/
def dropExponent? : Text → Option Text
  | c :: rest =>
    if c = 'e' ∨ c = 'E' then
      match rest with
      | '+' :: rest | '-' :: rest => dropDigits? rest
      | rest => dropDigits? rest
    else some (c :: rest)
  | [] => some []

/-- The rest of a text after a fraction, if there is one. -/
def dropFraction? : Text → Option Text
  | '.' :: rest => dropDigits? rest
  | t => some t

/-- Whether a text is a JSON number: no zero stands before other digits, and digits stand on both
sides of a point. -/
def isNumber (t : Text) : Bool :=
  let whole : Text := match t with
    | '-' :: rest => rest
    | t => t
  let rest? : Option Text := match whole with
    | '0' :: rest => some rest
    | whole => dropDigits? whole
  (rest?.bind dropFraction?).bind dropExponent? == some []

/-! ## Section 2: Strings -/

/-- The body of a string up to its closing quote, with its escapes, and the rest after the quote. -/
def takeString : Text → Option (Text × Text)
  | [] => none
  | '"' :: rest => some ([], rest)
  | '\\' :: c :: rest => (takeString rest).map fun (body, rest) => ('\\' :: c :: body, rest)
  | c :: rest =>
    if c.toNat < 0x20 then none
    else (takeString rest).map fun (body, rest) => (c :: body, rest)

/-- The character that an escape of two characters stands for. -/
def simpleEscape? : Char → Option Char
  | '"' => some '"'
  | '\\' => some '\\'
  | '/' => some '/'
  | 'b' => some '\x08'
  | 'f' => some '\x0c'
  | 'n' => some '\n'
  | 'r' => some '\r'
  | 't' => some '\t'
  | _ => none

/-- The character of a pair of surrogates. -/
def joinSurrogates? (high low : Nat) : Option Char :=
  if 0xDC00 ≤ low ∧ low < 0xE000 then
    some (Char.ofNat (0x10000 + 0x400 * (high - 0xD800) + (low - 0xDC00)))
  else none

/-- The text that the body of a string stands for. A character beyond the first 65536 is escaped as
a pair of surrogates; a single surrogate is no character. -/
def unescape? (t : Text) : Option Text :=
  match t with
  | [] => some []
  | '\\' :: 'u' :: a :: b :: c :: d :: rest => do
    let unit ← Text.hexNumber? [a, b, c, d]
    if unit < 0xD800 ∨ 0xE000 ≤ unit then (unescape? rest).map (Char.ofNat unit :: ·)
    else
      match rest with
      | '\\' :: 'u' :: a :: b :: c :: d :: rest => do
        -- the second half of a pair must not come first
        if 0xDC00 ≤ unit then none
        else
          let char ← joinSurrogates? unit (← Text.hexNumber? [a, b, c, d])
          (unescape? rest).map (char :: ·)
      | _ => none
  | '\\' :: c :: rest => do
    let char ← simpleEscape? c
    (unescape? rest).map (char :: ·)
  | c :: rest => if c = '\\' then none else (unescape? rest).map (c :: ·)
termination_by t.length

/-! ## Section 3: Tokens -/

/-- The two kinds of brackets. -/
inductive Bracket where
  | square
  | curly
  deriving DecidableEq, Repr

/-- What stands at one level between brackets. -/
inductive Piece where
  | comma
  | colon
  | value (value : Json)

/-- Whether a character may stand in a literal. -/
def isLiteralChar (c : Char) : Bool := c.isAlphanum || c = '+' || c = '-' || c = '.'

/-- The value of a literal. -/
def literal? (word : Text) : Option Json :=
  if word = "null".toList then some .null
  else if word = "true".toList then some (.bool true)
  else if word = "false".toList then some (.bool false)
  else if isNumber word then some (.number word)
  else none

/-- The first token of a text, and the rest after it and the blanks that follow. -/
def token? (t : Text) : Option (Token Bracket Piece × Text) :=
  match t with
  | [] => none
  | '[' :: rest => some (.opening .square, rest.dropWhile isGap)
  | ']' :: rest => some (.closing .square, rest.dropWhile isGap)
  | '{' :: rest => some (.opening .curly, rest.dropWhile isGap)
  | '}' :: rest => some (.closing .curly, rest.dropWhile isGap)
  | ',' :: rest => some (.piece .comma, rest.dropWhile isGap)
  | ':' :: rest => some (.piece .colon, rest.dropWhile isGap)
  | '"' :: rest => do
    let (body, rest) ← takeString rest
    return (.piece (.value (.string (← unescape? body))), rest.dropWhile isGap)
  | t => do
    let value ← literal? (t.takeWhile isLiteralChar)
    return (.piece (.value value), (t.dropWhile isLiteralChar).dropWhile isGap)

/-! ## Section 4: Values -/

/-- The item of a part between commas. -/
def item? : List Piece → Option Json
  | [.value value] => some value
  | _ => none

/-- The field of a part between commas. -/
def field? : List Piece → Option (String × Json)
  | [.value (.string name), .colon, .value value] => some (name.str, value)
  | _ => none

/-- The parts between commas. -/
def commaParts (pieces : List Piece) : List (List Piece) :=
  parts (fun | .comma => true | _ => false) pieces

/-- The value of the pieces between two brackets. -/
def ofPieces? : Bracket → List Piece → Option Json
  | .square, [] => some (.list [])
  | .square, pieces => ((commaParts pieces).mapM item?).map .list
  | .curly, [] => some (.object [])
  | .curly, pieces => ((commaParts pieces).mapM field?).map .object

/-- Read a JSON text. -/
def parse (t : Text) : Option Json := do
  let tokens ← Text.takeAll? token? (t.dropWhile isGap)
  match ← fold? (fun bracket pieces => (ofPieces? bracket pieces).map .value) tokens with
  | [.value value] => some value
  | _ => none

end MessageCatalog.Json
