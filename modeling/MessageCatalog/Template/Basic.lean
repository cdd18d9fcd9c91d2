import MessageCatalog.Text.Basic

/-!
# Templates

A template is literal text with positional placeholders `{index}`, `{index,type}` and
`{index,type,style}`. This module holds the parsed form, the types of arguments, and the ways a
template can be malformed.
-/

namespace MessageCatalog

/-! ## Section 1: Argument types -/

/-- The type of a positional argument. `untyped` agrees with every other type; `string` stands for
an index that no placeholder mentions. -/
inductive ArgType where
  | untyped
  | string
  | number
  | date
  | choice
  deriving DecidableEq, Repr, Inhabited

namespace ArgType

/-- Whether a type says anything about the values it admits. -/
def isConcrete (t : ArgType) : Bool := t != .untyped

/-- The name of a type in reports. -/
def name : ArgType → String
  | .untyped => "UNTYPED"
  | .string => "STRING"
  | .number => "NUMBER"
  | .date => "DATE"
  | .choice => "CHOICE"

/-- The type with a given report name. -/
def ofName? : String → Option ArgType
  | "UNTYPED" => some .untyped
  | "STRING" => some .string
  | "NUMBER" => some .number
  | "DATE" => some .date
  | "CHOICE" => some .choice
  | _ => none

end ArgType

/-- What a typed placeholder prints. A `time` placeholder takes a date argument as well. -/
inductive FormatKind where
  | number
  | date
  | time
  | choice
  deriving DecidableEq, Repr

namespace FormatKind

/-- The keyword of a kind inside a placeholder. -/
def keyword : FormatKind → Text
  | .number => "number".toList
  | .date => "date".toList
  | .time => "time".toList
  | .choice => "choice".toList

/-- The kind that a keyword names; blanks around it and its case do not count. -/
def ofKeyword? (k : Text) : Option FormatKind :=
  let k := (Text.trim k).map Char.toLower
  [.number, .date, .time, .choice].find? (·.keyword == k)

/-- The type of the argument that a kind takes. -/
def argType : FormatKind → ArgType
  | .number => .number
  | .date => .date
  | .time => .date
  | .choice => .choice

end FormatKind

/-- The argument type that a keyword names; an empty keyword leaves the argument untyped. -/
def ArgType.ofKeyword? (k : Text) : Option ArgType :=
  if Text.trim k = [] then some .untyped else (FormatKind.ofKeyword? k).map FormatKind.argType

/-! ## Section 2: Segments -/

/-- The type part and the style part of a placeholder. A blank style counts as absent. -/
structure Format where
  kind : FormatKind
  style : Option Text
  deriving DecidableEq, Repr

/-- A placeholder at the top level of a template. Without a type part there is no style either. -/
structure Placeholder where
  index : Nat
  format : Option Format
  deriving DecidableEq, Repr

namespace Placeholder

/-- The type that a placeholder gives to its argument. -/
def argType (p : Placeholder) : ArgType :=
  match p.format with
  | none => .untyped
  | some f => f.kind.argType

/-- The style part, if there is one. -/
def style (p : Placeholder) : Option Text := p.format.bind Format.style

/-- The highest index that a placeholder may have. -/
def maxIndex : Nat := 255

end Placeholder

/-- A piece of a template: literal text with its quotes resolved, or a placeholder. -/
inductive Segment where
  | literal (text : Text)
  | placeholder (p : Placeholder)
  deriving DecidableEq, Repr

namespace Segment

/-- Put one literal character in front; it joins a literal that follows it. -/
def consChar (c : Char) : List Segment → List Segment
  | literal t :: rest => literal (c :: t) :: rest
  | rest => literal [c] :: rest

/-- The placeholders among some segments, in order. -/
def placeholders (segments : List Segment) : List Placeholder :=
  segments.filterMap fun
    | literal _ => none
    | placeholder p => some p

@[simp]
theorem placeholders_nil : placeholders [] = [] := rfl

@[simp]
theorem placeholders_literal (t : Text) (rest : List Segment) :
    placeholders (literal t :: rest) = placeholders rest := rfl

@[simp]
theorem placeholders_placeholder (p : Placeholder) (rest : List Segment) :
    placeholders (placeholder p :: rest) = p :: placeholders rest := rfl

/-- Literal characters leave the placeholders alone. -/
@[simp]
theorem placeholders_consChar (c : Char) (segments : List Segment) :
    placeholders (consChar c segments) = placeholders segments := by
  match segments with
  | [] => rfl
  | literal _ :: _ => rfl
  | placeholder _ :: _ => rfl

end Segment

/-- A template: its text and the segments it consists of. -/
structure Template where
  source : Text
  segments : List Segment
  deriving DecidableEq, Repr

namespace Template

/-- The placeholders of a template, in order. -/
def placeholders (t : Template) : List Placeholder := Segment.placeholders t.segments

end Template

/-! ## Section 3: Malformed templates -/

/-- Why a template is malformed, or why its placeholders do not agree. Positions count
characters. -/
inductive TemplateError where
  /-- The placeholder opened at `position` has no closing brace. -/
  | unterminatedPlaceholder (position : Nat)
  /-- The quote at `position` is not closed. -/
  | unterminatedQuote (position : Nat)
  /-- The index of the placeholder at `position` is not a row of digits. -/
  | invalidIndex (index : Text) (position : Nat)
  /-- The index is above the highest one accepted. -/
  | indexOutOfRange (index : Nat)
  /-- The type part names no type. -/
  | unknownFormatType (keyword : Text) (index : Nat)
  /-- Two placeholders give one index different types. -/
  | ambiguousType (index : Nat) (first second : ArgType)
  deriving DecidableEq, Repr

namespace TemplateError

/-- The text of a template error. -/
def message : TemplateError → String
  | .unterminatedPlaceholder position =>
    s!"unterminated placeholder starting at position {position}"
  | .unterminatedQuote position => s!"unterminated quote starting at position {position}"
  | .invalidIndex index position =>
    s!"invalid argument index '{index.str}' at position {position}"
  | .indexOutOfRange index =>
    s!"argument index {index} exceeds the maximum of {Placeholder.maxIndex}"
  | .unknownFormatType keyword index =>
    s!"unknown format type '{keyword.str}' for argument {index}"
  | .ambiguousType index first second =>
    s!"argument {index} is declared as both {first.name} and {second.name}"

end TemplateError

end MessageCatalog
