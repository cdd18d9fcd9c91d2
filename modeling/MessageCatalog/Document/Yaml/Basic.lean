import MessageCatalog.Document.Basic
import MessageCatalog.Document.Yaml.Token

/-!
# YAML nodes

A YAML document is a tree of scalars, lists and mappings. A node may have a tag, and an anchor by
which aliases refer to it, so that it stands in several places.

What a plain scalar means is decided where it is read: wanted as text it is its own text, and wanted
as a truth value it must be spelled as one. A value that is left empty is a plain scalar without
text; it stands for an empty list or record as well. Tags matter for constants, truth values and
values that are left out only.
-/

namespace MessageCatalog

namespace Yaml

/-- What stands before a node: the number of its anchor, and its tag. -/
structure Properties where
  anchor : Option Nat := none
  tag : Option Tag := none
  deriving DecidableEq, Repr

/-- A node of a document. -/
inductive Node where
  | alias (anchor : Nat)
  | scalar (properties : Properties) (style : Style) (text : Text)
  | list (properties : Properties) (items : List Node)
  | mapping (properties : Properties) (entries : List (Node × Node))

namespace Node

/-- A value that is left empty. -/
def empty : Node := .scalar {} .plain []

instance : Inhabited Node := ⟨empty⟩

/-- What stands before a node. -/
def properties : Node → Properties
  | .alias _ => {}
  | .scalar properties _ _ => properties
  | .list properties _ => properties
  | .mapping properties _ => properties

/-- Put properties before a node. A lone exclamation mark is no tag of a scalar. -/
def label (p : Properties) : Node → Node
  | .alias anchor => .alias anchor
  | .scalar _ style text =>
    .scalar { p with tag := p.tag.filter (· ≠ Tag.ofText ['!']) } style text
  | .list _ items => .list p items
  | .mapping _ entries => .mapping p entries

/-- A node with its anchor, if it has one. -/
def ownAnchor (node : Node) : List (Nat × Node) :=
  (node.properties.anchor.map fun anchor => (anchor, node)).toList

mutual

/-- The nodes with anchors in a node, in the order in which they begin. -/
def anchored : Node → List (Nat × Node)
  | .alias _ => []
  | .scalar p style text => ownAnchor (.scalar p style text)
  | .list p items => ownAnchor (.list p items) ++ anchoredItems items
  | .mapping p entries => ownAnchor (.mapping p entries) ++ anchoredEntries entries

/-- The nodes with anchors in some items. -/
def anchoredItems : List Node → List (Nat × Node)
  | [] => []
  | item :: rest => item.anchored ++ anchoredItems rest

/-- The nodes with anchors in some entries. -/
def anchoredEntries : List (Node × Node) → List (Nat × Node)
  | [] => []
  | (key, value) :: rest => key.anchored ++ value.anchored ++ anchoredEntries rest

end

end Node

end Yaml

/-- A node, with the nodes of its document that aliases may refer to. -/
structure Yaml where
  anchored : List (Nat × Yaml.Node)
  node : Yaml.Node

namespace Yaml

/-- The document with a root. -/
def ofRoot (root : Node) : Yaml := ⟨root.anchored, root⟩

/-- A document without content. -/
def empty : Yaml := ofRoot .empty

/-- The node that is meant: an alias stands for the last node with its anchor. -/
def target (y : Yaml) : Node :=
  match y.node with
  | .alias anchor =>
    ((y.anchored.filter fun entry => entry.1 = anchor).getLast?.map Prod.snd).getD .empty
  | node => node

/-- The truth value that a plain scalar spells. -/
def truthOf? (t : Text) : Option Bool :=
  if t ∈ ["true".toList, "True".toList, "TRUE".toList] then some true
  else if t ∈ ["false".toList, "False".toList, "FALSE".toList] then some false
  else none

/-- Whether a plain scalar spells that a value is left out. -/
def spellsNull (t : Text) : Bool := ["null".toList, "Null".toList, "NULL".toList, ['~']].contains t

/-- The tag of truth values. -/
def truthTag : Tag := Tag.ofText "tag:yaml.org,2002:bool".toList

/-- The tag of values that are left out. -/
def nullTag : Tag := Tag.ofText "tag:yaml.org,2002:null".toList

/-- The name in a tag of the document's own, which begins with an exclamation mark. -/
def Node.localTag? (node : Node) : Option Text :=
  match node.properties.tag with
  | some (mark :: name) => if mark = 33 then (Text.Utf8.decode name).toOption else none
  | _ => none

/-- The name of a constant: the tag of a value that holds nothing, or the text of a scalar. -/
def Node.constant? (node : Node) : Option Text :=
  match node.localTag?, node with
  | some name, .scalar _ .plain text => if text = [] ∨ spellsNull text then some name else none
  | some _, _ => none
  | none, .scalar _ _ text => some text
  | none, _ => none

instance : Document Yaml where
  text? y := match y.target with
    | .scalar _ _ text => some text
    | _ => none
  constant? y := y.target.constant?
  truth? y := match y.target with
    | .scalar _ .plain text => truthOf? text
    | .scalar p .literal text => if p.tag = some truthTag then truthOf? text else none
    | _ => none
  isNull? y := match y.target with
    | .scalar ⟨_, none⟩ .plain text => some (text = [] || spellsNull text)
    | .scalar ⟨_, some tag⟩ .plain text =>
      if tag ≠ nullTag then some false else if spellsNull text then some true else none
    | _ => some false
  items? y := match y.target with
    | .list _ items => some (items.map fun item => ⟨y.anchored, item⟩)
    | .scalar _ .plain [] => some []
    | _ => none
  fields? _ y := match y.target with
    | .mapping _ entries => entries.mapM fun (key, value) =>
      match target ⟨y.anchored, key⟩ with
      | .scalar _ _ name => some (name.str, ⟨y.anchored, value⟩)
      | _ => none
    | .scalar _ .plain [] => some []
    | _ => none

end Yaml

end MessageCatalog
