import MessageCatalog.Template.Basic

/-!
# Writing templates

The written form of a list of segments. A placeholder is its parts between braces, separated by
commas. A literal has every quote doubled, and everything from its first opening brace on stands
between one opening and one closing quote.
-/

namespace MessageCatalog

open Text

namespace Placeholder

/-- The written form of a placeholder. -/
def print (p : Placeholder) : Text :=
  let parts := match p.format with
    | none => [numeral p.index]
    | some ⟨kind, none⟩ => [numeral p.index, kind.keyword]
    | some ⟨kind, some style⟩ => [numeral p.index, kind.keyword, style]
  '{' :: join [','] parts ++ ['}']

end Placeholder

namespace Segment

/-- Every quote is written twice. -/
def doubleQuotes (t : Text) : Text := replaceChar '\'' ['\'', '\''] t

/-- The written form of literal text. -/
def printLiteral (t : Text) : Text :=
  let plain := t.takeWhile (· != '{')
  let braced := t.dropWhile (· != '{')
  doubleQuotes plain ++
    if braced = [] then [] else '\'' :: doubleQuotes braced ++ ['\'']

/-- The written form of a segment. -/
def print : Segment → Text
  | literal t => printLiteral t
  | placeholder p => p.print

/-- The written form of some segments. -/
def printAll (segments : List Segment) : Text := segments.flatMap print

/-! ## Normal segment lists -/

/-- A style that can stand inside a placeholder: not blank, every quote closed, and the braces
outside quotes balanced. -/
def styleCloses : (quoted : Bool) → (depth : Nat) → Text → Bool
  | quoted, depth, [] => !quoted && depth == 0
  | true, depth, c :: cs => styleCloses (c != '\'') depth cs
  | false, depth, c :: cs =>
    if c = '\'' then styleCloses true depth cs
    else if c = '{' then styleCloses false (depth + 1) cs
    else if c = '}' then depth != 0 && styleCloses false (depth - 1) cs
    else styleCloses false depth cs

/-- A placeholder that its written form gives back. -/
def normalPlaceholder (p : Placeholder) : Bool :=
  decide (p.index ≤ Placeholder.maxIndex) &&
    match p.style with
    | none => true
    | some style => !blank style && styleCloses false 0 style

/-- Segments in normal form: no empty literal, no two literals side by side, and normal
placeholders. -/
def normal : List Segment → Bool
  | [] => true
  | [literal t] => !t.isEmpty
  | literal t :: placeholder p :: rest => !t.isEmpty && normal (placeholder p :: rest)
  | literal _ :: literal _ :: _ => false
  | placeholder p :: rest => normalPlaceholder p && normal rest

end Segment

end MessageCatalog
