import MessageCatalog.Document.Brackets
import MessageCatalog.Document.Yaml.Basic
import MessageCatalog.Document.Yaml.Lexer

/-!
# Reading YAML

The tokens of a document are folded by its collections, and what stands in a collection is read as
its items or entries. An anchor has the number of the different names before it, and an alias refers
to the number that its name has there.
-/

namespace MessageCatalog.Yaml

/-! ## Section 1: Pieces -/

/-- What stands at one level of a document. A node comes without its properties; those stand before
it. -/
inductive Piece where
  | comma
  | dash
  | key
  | value
  | anchor (anchor : Nat)
  | alias (anchor : Nat)
  | tag (tag : Tag)
  | node (inBlock : Bool) (node : Node)

/-- Whether a piece begins an entry or the value of one. -/
def Piece.isSign : Piece → Bool
  | .key | .value => true
  | _ => false

/-- Whether a piece begins an item. -/
def Piece.isDash : Piece → Bool
  | .dash => true
  | _ => false

/-- The numbers of anchors so far. A name that is given again takes the next number, and so shares
it with the next new name. -/
abbrev AnchorNumbers := List (Text × Nat)

/-- Give a name the next number. -/
def AnchorNumbers.add (numbers : AnchorNumbers) (name : Text) : AnchorNumbers :=
  (name, numbers.length) :: numbers.filter fun entry => entry.1 ≠ name

/-- The pieces and brackets that tokens are, in turn. A handle must have a meaning, and an alias an
anchor before it. Directives and document markers stand at the head of a document only. -/
def pieces? (handles : Handles) :
    AnchorNumbers → List Token → Option (List (Brackets.Token Bracket Piece))
  | _, [] => some []
  | numbers, token :: rest =>
    match token with
    | .anchor name =>
      (pieces? handles (numbers.add name) rest).map (.piece (.anchor numbers.length) :: ·)
    | token => do
      let piece ← match token with
        | .opening bracket => some (.opening bracket)
        | .closing bracket => some (.closing bracket)
        | .comma => some (.piece .comma)
        | .dash => some (.piece .dash)
        | .key => some (.piece .key)
        | .value => some (.piece .value)
        | .alias name => (numbers.lookup name).map fun anchor => .piece (.alias anchor)
        | .tag name => (name.resolve? handles).map fun tag => .piece (.tag tag)
        | .scalar style text => some (.piece (.node false (.scalar {} style text)))
        | .anchor _ | .directive _ | .documentStart | .documentEnd => none
      return piece :: (← pieces? handles numbers rest)

/-! ## Section 2: Nodes -/

/-- The properties before a node, in any order, and the rest. -/
def takeProperties : List Piece → Properties × List Piece
  | .anchor anchor :: .tag tag :: rest => (⟨some anchor, some tag⟩, rest)
  | .tag tag :: .anchor anchor :: rest => (⟨some anchor, some tag⟩, rest)
  | .anchor anchor :: rest => (⟨some anchor, none⟩, rest)
  | .tag tag :: rest => (⟨none, some tag⟩, rest)
  | rest => ({}, rest)

/-- The node at the front, and the rest. Properties may stand alone, before a value that is left
empty. A block stands within blocks only. -/
def takeNode? (inBlock : Bool) (pieces : List Piece) : Option (Node × List Piece) :=
  match pieces with
  | .alias anchor :: rest => some (.alias anchor, rest)
  | pieces =>
    match takeProperties pieces with
    | (p, .node isBlock node :: rest) =>
      if isBlock ∧ !inBlock then none else some (node.label p, rest)
    | (p, rest) => if p = {} then none else some (.scalar p .plain [], rest)

/-- The node that some pieces make up. -/
def wholeNode? (inBlock : Bool) (pieces : List Piece) : Option Node :=
  match takeNode? inBlock pieces with
  | some (node, []) => some node
  | _ => none

/-! ## Section 3: Blocks -/

/-- The next item of a block, and the rest. It may be left empty. -/
def blockItem? : List Piece → Option (Node × List Piece)
  | .dash :: rest =>
    if rest.head?.all fun next => next.isDash || next.isSign then some (.empty, rest)
    else takeNode? true rest
  | _ => none

/-- The next key or value of a block, and the rest. It may be left empty, and it may be a list in
the column of the block. -/
def blockPart? (pieces : List Piece) : Option (Node × List Piece) :=
  if pieces.head?.all Piece.isSign then some (.empty, pieces)
  else
    let (p, rest) := takeProperties pieces
    if rest.head?.any Piece.isDash then
      let (items, rest) := Text.takeWhile? blockItem? rest
      some (.list p items, rest)
    else takeNode? true pieces

/-- The next entry of a block, and the rest. -/
def blockPair? : List Piece → Option ((Node × Node) × List Piece)
  | .key :: rest => do
    match ← blockPart? rest with
    | (key, .value :: rest) => (blockPart? rest).map fun (value, rest) => ((key, value), rest)
    | (key, rest) => some ((key, .empty), rest)
  | _ => none

/-! ## Section 4: Brackets -/

/-- An entry between commas, after its question mark. Key and value may be left empty. -/
def flowPair? (pieces : List Piece) : Option (Node × Node) := do
  let (key, rest) ←
    if pieces.head?.all Piece.isSign then some (.empty, pieces) else takeNode? false pieces
  match rest with
  | [] | [.value] => some (key, .empty)
  | .value :: rest => (wholeNode? false rest).map (key, ·)
  | _ => none

/-- An item between commas. An entry makes a mapping of its own. -/
def flowItem? : List Piece → Option Node
  | .key :: rest => (flowPair? rest).map fun entry => .mapping {} [entry]
  | pieces => wholeNode? false pieces

/-- An entry between commas. A key may stand alone. -/
def flowKeyed? : List Piece → Option (Node × Node)
  | .key :: rest => flowPair? rest
  | pieces => (wholeNode? false pieces).map (·, .empty)

/-- The parts between commas; nothing need stand after the last comma. -/
def flowParts (pieces : List Piece) : List (List Piece) :=
  match (Brackets.parts (fun | .comma => true | _ => false) pieces).reverse with
  | [] :: rest => rest.reverse
  | all => all.reverse

/-- The node of the pieces of a collection. -/
def ofPieces? : Bracket → List Piece → Option Piece
  | .blockList, pieces =>
    (Text.takeAll? blockItem? pieces).map fun items => .node true (.list {} items)
  | .blockMapping, pieces =>
    (Text.takeAll? blockPair? pieces).map fun entries => .node true (.mapping {} entries)
  | .flowList, pieces =>
    ((flowParts pieces).mapM flowItem?).map fun items => .node false (.list {} items)
  | .flowMapping, pieces =>
    ((flowParts pieces).mapM flowKeyed?).map fun entries => .node false (.mapping {} entries)

/-- Whether a token stands for the key that is left empty, where it follows the question mark of an
item. -/
def standsForKey : Brackets.Token Bracket Piece → Bool
  | .piece .value | .piece .comma | .closing .flowList => true
  | _ => false

/-- Take one more token to the open levels. What follows the question mark of an item is its key in
any case. -/
def step (levels : List (Brackets.Level Bracket Piece)) (token : Brackets.Token Bracket Piece) :
    Option (List (Brackets.Level Bracket Piece)) :=
  match levels with
  | ⟨some .flowList, .key :: _⟩ :: _ =>
    Brackets.step ofPieces? levels
      (if standsForKey token then .piece (.node false .empty) else token)
  | levels => Brackets.step ofPieces? levels token

/-! ## Section 5: Documents -/

/-- Whether a token ends a document. -/
def Token.isEnd : Token → Bool
  | .documentEnd => true
  | _ => false

/-- The directive that a token is. -/
def Token.directive? : Token → Option Directive
  | .directive d => some d
  | _ => none

/-- The document with some content. A document that a marker begins may be empty. -/
def content? (handles : Handles) (marked : Bool) (tokens : List Token) : Option Yaml := do
  let tokens := (tokens.reverse.dropWhile Token.isEnd).reverse
  let levels ← (← pieces? handles [] tokens).foldlM step [⟨none, []⟩]
  let pieces ← Brackets.outermost? levels
  if marked ∧ pieces.isEmpty then return .empty else (wholeNode? true pieces).map ofRoot

/-- The only document of some tokens. One that has directives begins with a marker. -/
def ofTokens? (tokens : List Token) : Option Yaml :=
  let directives := (tokens.map Token.directive?).takeWhile Option.isSome
  match tokens.drop directives.length with
  | .documentStart :: rest => do
    content? (← Handles.ofDirectives? (directives.filterMap id)) true rest
  | [] => if directives = [] then some .empty else none
  | rest => if directives = [] then content? .standard false rest else none

/-- Read a text that holds one document. A text without a document is empty. -/
def parse (t : Text) : Option Yaml :=
  if t.all isAllowed then (cut? (normalizeBreaks t)).bind ofTokens? else none

end MessageCatalog.Yaml
