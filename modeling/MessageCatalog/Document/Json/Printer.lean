import MessageCatalog.Document.Json.Basic

/-!
# Printing JSON

A JSON value on as many lines as it needs: two blanks for each level, and every item and field on
lines of its own. An empty list or object stays on one line.
-/

namespace MessageCatalog.Json

/-! ## Section 1: Strings -/

/-- The characters that stand for one character inside a string. -/
def escapeChar (c : Char) : Text :=
  if c = '"' then ['\\', '"']
  else if c = '\\' then ['\\', '\\']
  else if c = '\n' then ['\\', 'n']
  else if c = '\r' then ['\\', 'r']
  else if c = '\t' then ['\\', 't']
  else if c = '\x08' then ['\\', 'b']
  else if c = '\x0c' then ['\\', 'f']
  else if c.toNat < 0x20 then '\\' :: 'u' :: Text.padZeros 4 (Nat.toDigits 16 c.toNat)
  else [c]

/-- A text as a JSON string. -/
def quote (t : Text) : String := Text.str ('"' :: t.flatMap escapeChar ++ ['"'])

/-! ## Section 2: Lines -/

/-- Lines two blanks to the right. -/
def indent (lines : List String) : List String := lines.map ("  " ++ ·)

/-- Put a head in front of the first of some lines. -/
def withHead (head : String) : List String → List String
  | [] => [head]
  | line :: lines => (head ++ line) :: lines

/-- The lines of several values, with a comma after every value but the last. -/
def separate : List (List String) → List String
  | [] => []
  | [lines] => lines
  | lines :: rest => lines.dropLast ++ [lines.getLastD "" ++ ","] ++ separate rest

/-- Lines between brackets; without lines the brackets stand together. -/
def enclose (opening closing : String) (lines : List String) : List String :=
  if lines.isEmpty then [opening ++ closing] else [opening] ++ indent lines ++ [closing]

mutual

/-- The lines of a value. -/
def lines : Json → List String
  | .null => ["null"]
  | .bool value => [if value then "true" else "false"]
  | .number digits => [digits.str]
  | .string text => [quote text]
  | .list items => enclose "[" "]" (separate (itemLines items))
  | .object fields => enclose "\x7b" "\x7d" (separate (fieldLines fields))

/-- The lines of each item of a list. -/
def itemLines : List Json → List (List String)
  | [] => []
  | item :: rest => item.lines :: itemLines rest

/-- The lines of each field of an object. -/
def fieldLines : List (String × Json) → List (List String)
  | [] => []
  | (name, value) :: rest =>
    withHead (quote name.toList ++ ": ") value.lines :: fieldLines rest

end

/-- A value on as many lines as it needs. -/
def render (j : Json) : String := "\n".intercalate j.lines

end MessageCatalog.Json
