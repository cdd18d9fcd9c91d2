import MessageCatalog.Document.Yaml.Block
import MessageCatalog.Document.Yaml.Scalar
import MessageCatalog.Document.Yaml.Tag

/-!
# YAML tokens

A YAML text is cut into tokens. Most of them stand in the text; where a block of lines begins or
ends shows from its indentation alone, and a key shows only when the colon after it is reached.

A key that no question mark announces stands on one line and takes at most 1024 bytes of it. Where
the next key of a block is expected, nothing else may stand.
-/

namespace MessageCatalog.Yaml

/-- What a collection is written with: the lines of a block, or a pair of brackets. -/
inductive Bracket where
  | blockList
  | blockMapping
  | flowList
  | flowMapping
  deriving DecidableEq, Repr

/-- How a scalar is written. -/
inductive Style where
  | plain
  | quoted
  | literal
  | folded
  deriving DecidableEq, Repr

/-- A token of a YAML text. -/
inductive Token where
  | directive (directive : Directive)
  | documentStart
  | documentEnd
  | opening (bracket : Bracket)
  | closing (bracket : Bracket)
  | comma
  | dash
  | key
  | value
  | anchor (name : Text)
  | alias (name : Text)
  | tag (name : TagName)
  | scalar (style : Style) (text : Text)
  deriving DecidableEq, Repr

/-! ## Section 1: The state of a cut -/

/-- A place where a key may have begun: the number of tokens before it, its first character, and
whether there must be a key. -/
structure PendingKey where
  index : Nat
  first : Spot
  required : Bool
  deriving DecidableEq, Repr

/-- How far a text is cut: the blocks that are open, with their columns and the innermost first; the
place where a key may have begun, at this level of brackets and at those around it; whether a key
may begin here; and the tokens so far, the latest first. -/
structure Cut where
  blocks : List (Nat × Bracket)
  pending : Option PendingKey
  outer : List (Option PendingKey)
  mayBeginKey : Bool
  tokens : List Token
  deriving DecidableEq, Repr

namespace Cut

/-- Before the first token. -/
def start : Cut := ⟨[], none, [], true, []⟩

/-- Whether brackets are open. -/
def inBrackets (c : Cut) : Bool := !c.outer.isEmpty

/-- The least column that lies within the innermost block. -/
def least (c : Cut) : Nat := (c.blocks.head?.map fun block => block.1 + 1).getD 0

/-- Add a token. -/
def add (c : Cut) (token : Token) : Cut := { c with tokens := token :: c.tokens }

/-- Put a token after the first `index` ones. -/
def insert (c : Cut) (index : Nat) (token : Token) : Cut :=
  { c with tokens := c.tokens.insertIdx (c.tokens.length - index) token }

/-- Say whether a key may begin after this. -/
def allowKey (c : Cut) (mayBeginKey : Bool) : Cut := { c with mayBeginKey }

/-! ## Section 2: Blocks -/

/-- Close the blocks to the right of a column, or all of them. -/
def closeBlocks (c : Cut) (column : Option Nat) : Cut :=
  if c.inBrackets then c
  else
    let isClosed : Nat × Bracket → Bool := fun block => column.all (· < block.1)
    { c with
      blocks := c.blocks.dropWhile isClosed
      tokens :=
        (c.blocks.takeWhile isClosed).foldl (fun ts block => .closing block.2 :: ts) c.tokens }

/-- Open a block in a column, if that lies to the right of the blocks that are open; it begins after
the first `index` tokens. -/
def openBlock (c : Cut) (bracket : Bracket) (index column : Nat) : Cut :=
  if c.inBrackets ∨ column < c.least then c
  else { c.insert index (.opening bracket) with blocks := (column, bracket) :: c.blocks }

/-! ## Section 3: Places of keys -/

/-- There is no key at the pending place after all. -/
def dropKey? (c : Cut) : Option Cut :=
  if c.pending.any PendingKey.required then none else some { c with pending := none }

/-- A key may begin here, if one may at all. In the column of the innermost block there must be
one. -/
def markKey? (c : Cut) (here : Spot) : Option Cut :=
  if c.mayBeginKey then
    let required := !c.inBrackets && c.blocks.head?.any fun block => block.1 = here.column
    c.dropKey?.map fun c =>
      { c with pending := some ⟨c.tokens.length, here, required⟩ }
  else some c

/-- Whether a place is too far away for a key that ends here. -/
def isPast (here : Spot) (p : PendingKey) : Bool :=
  p.first.line < here.line || p.first.offset + 1024 < here.offset

/-- Forget the places that are too far away. -/
def expireKeys? (c : Cut) (here : Spot) : Option Cut :=
  if (c.pending :: c.outer).any fun p => p.any fun p => p.required && isPast here p then none
  else
    let keep : Option PendingKey → Option PendingKey := fun p => p.filter fun p => !isPast here p
    some { c with pending := keep c.pending, outer := c.outer.map keep }

/-! ## Section 4: Tokens -/

/-- A token that ends all blocks and stands alone: a directive, or a document marker. -/
def addAlone? (c : Cut) (token : Token) : Option Cut :=
  (c.closeBlocks none).dropKey?.map fun c => (c.allowKey false).add token

/-- A token that may be a key, or begin one. -/
def addNode? (c : Cut) (here : Spot) (token : Token) : Option Cut :=
  (c.markKey? here).map fun c => (c.allowKey false).add token

/-- An opening bracket. A key may begin with it, and one may begin after it. -/
def addOpening? (c : Cut) (here : Spot) (bracket : Bracket) : Option Cut :=
  (c.markKey? here).map fun c =>
    { c.add (.opening bracket) with
      pending := none, outer := c.pending :: c.outer, mayBeginKey := true }

/-- A closing bracket. -/
def addClosing? (c : Cut) (bracket : Bracket) : Option Cut :=
  c.dropKey?.map fun c =>
    let c := (c.allowKey false).add (.closing bracket)
    match c.outer with
    | [] => c
    | pending :: outer => { c with pending, outer }

/-- A comma. -/
def addComma? (c : Cut) : Option Cut := c.dropKey?.map fun c => (c.allowKey true).add .comma

/-- A token that begins an item or a key. Outside of brackets a key must be allowed here; a block
begins here, if none is open in this column. -/
def addBeginning? (c : Cut) (here : Spot) (bracket : Bracket) (token : Token) (allows : Bool) :
    Option Cut :=
  if !c.inBrackets ∧ !c.mayBeginKey then none
  else
    (c.openBlock bracket c.tokens.length here.column).dropKey?.map fun c =>
      (c.allowKey allows).add token

/-- The colon after a key. What stands at the pending place is the key; without one the key is what
a question mark announced. -/
def addColon? (c : Cut) (here : Spot) : Option Cut :=
  match c.pending with
  | some p =>
    let c := (c.insert p.index .key).openBlock .blockMapping p.index p.first.column
    some ({ c with pending := none, mayBeginKey := false }.add .value)
  | none => c.addBeginning? here .blockMapping .value (!c.inBrackets)

end Cut

end MessageCatalog.Yaml
