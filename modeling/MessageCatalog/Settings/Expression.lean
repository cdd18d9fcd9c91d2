import MessageCatalog.Text.Alphanumeric
import MessageCatalog.Text.Quoted

/-!
# Regular expressions

Which texts are regular expressions. Groups and classes must be closed, an operator needs something
to repeat, and an escape must be known. There are no braces for counting, no look-around and no
references to groups, and none of the places between words is known.
-/

namespace MessageCatalog.Expression

open Text

/-! ## Section 1: Escapes -/

/-- What an escape stands for: one character, a set of them, or a place in the text. -/
inductive Escaped where
  | char (code : Nat)
  | set
  | place
  deriving DecidableEq, Repr

/-- The code point in the first `width` hexadecimal digits, and the rest. -/
def hexEscape? (width : Nat) (t : Text) : Option (Escaped × Text) := do
  let code ← hexNumber? (t.take width)
  if width ≤ t.length ∧ code.isValidChar then return (.char code, t.drop width) else none

/-- The letters of escapes that stand for one control character. -/
def controlLetters : List (Char × Nat) :=
  [('a', 7), ('f', 12), ('t', 9), ('n', 10), ('r', 13), ('v', 11)]

/-- What stands after a backslash, and the rest. -/
def escape? : Text → Option (Escaped × Text)
  | [] => none
  | c :: rest =>
    if c = 'x' then hexEscape? 2 rest
    else if c = 'u' then hexEscape? 4 rest
    else if c = 'U' then hexEscape? 8 rest
    else if c = 'p' ∨ c = 'P' then
      -- a general category with a name of one letter
      match rest with
      | category :: rest =>
        if "LMNPSZC".toList.contains category.toUpper then some (.set, rest) else none
      | [] => none
    else if "dDsSwW".toList.contains c then some (.set, rest)
    else if c = 'A' ∨ c = 'z' then some (.place, rest)
    else
      match controlLetters.lookup c with
      | some code => some (.char code, rest)
      | none =>
        if c.isAlphanum ∨ c = '<' ∨ c = '>' ∨ 128 ≤ c.toNat then none
        else some (.char c.toNat, rest)

/-! ## Section 2: Classes -/

/-- The names of classes that may stand between brackets and colons. -/
def classNames : List Text :=
  ["alnum", "alpha", "ascii", "blank", "cntrl", "digit", "graph", "lower", "print", "punct",
    "space", "upper", "word", "xdigit"].map String.toList

/-- The rest after a named class, where one stands after an opening bracket. -/
def namedClass? (t : Text) : Option Text := do
  let t ← stripPrefix? [':'] t
  let (name, rest) ← breakAt? ":]".toList ((stripPrefix? ['^'] t).getD t)
  if classNames.contains name then return rest.drop 2 else none

/-- The rest after what stands for itself at the beginning of a class: a sign that denies it, and
either dashes or a closing bracket. -/
def dropClassStart (t : Text) : Text :=
  match (stripPrefix? ['^'] t).getD t with
  | ']' :: rest => rest
  | t => t.dropWhile (· = '-')

/-- One character or set of a class, and the rest. -/
def classItem? : Text → Option (Escaped × Text)
  | '\\' :: rest => (escape? rest).filter fun (e, _) => e != .place
  | c :: rest => some (.char c.toNat, rest)
  | [] => none

/-- One item or range of a class, and the rest. A range goes from a character to a later one. -/
def classRange? (t : Text) : Option Text := do
  let (low, rest) ← classItem? t
  match rest with
  | '-' :: after =>
    if after.head? = some ']' ∨ after.head? = some '-' then return rest
    else
      match low, ← classItem? after with
      | .char low, (.char high, rest) => if low ≤ high then return rest else none
      | _, _ => none
  | rest => return rest

/-- The rest after a class, of which `depth` brackets are open. -/
def closeClass? (depth : Nat) (t : Text) : Option Text :=
  let next : Option (Nat × Text) := match t with
    | '[' :: rest =>
      some ((namedClass? rest).elim (depth + 1, dropClassStart rest) fun rest => (depth, rest))
    | ']' :: rest => some (depth - 1, rest)
    | '&' :: '&' :: rest | '-' :: '-' :: rest | '~' :: '~' :: rest => some (depth, rest)
    | t => (classRange? t).map fun rest => (depth, rest)
  match next with
  | none => none
  | some (depth, rest) =>
    if depth = 0 then some rest
    else if rest.length < t.length then closeClass? depth rest
    else none
termination_by t.length

/-! ## Section 3: Groups -/

/-- How a group begins: with flags for what follows, or with a part of its own, which may have a
name. -/
inductive GroupStart where
  | flags
  | part (name : Option Text)
  deriving DecidableEq, Repr

/-- Whether some flags are known, and none is given twice. -/
def areFlags (flags : Text) : Bool :=
  flags.all ("imsUuxR-".toList.contains ·) && flags.Nodup && flags.getLast? != some '-'

/-- Whether a text can be the name of a group. -/
def isGroupName : Text → Bool
  | [] => false
  | c :: rest =>
    (c = '_' || (isAlphanumeric c && !c.isDigit)) &&
      rest.all fun c => isAlphanumeric c || "_.[]".toList.contains c

/-- How a group begins, after its parenthesis, and the rest. -/
def groupStart? (t : Text) : Option (GroupStart × Text) :=
  match stripPrefix? ['?'] t with
  | none => some (.part none, t)
  | some t =>
    match (stripPrefix? "P<".toList t).or (stripPrefix? ['<'] t) with
    | some t =>
      match t.dropWhile (· != '>') with
      | [] => none
      | _ :: rest =>
        let name : Text := t.takeWhile (· != '>')
        if isGroupName name then some (.part (some name), rest) else none
    | none =>
      let isEnd : Char → Bool := fun c => c = ':' || c = ')'
      let flags : Text := t.takeWhile fun c => !isEnd c
      match t.dropWhile fun c => !isEnd c with
      | ':' :: rest => if areFlags flags then some (.part none, rest) else none
      | ')' :: rest => if areFlags flags ∧ flags ≠ [] then some (.flags, rest) else none
      | _ => none

/-! ## Section 4: Expressions -/

/-- How far an expression is read: the number of open groups, their names so far, and whether there
is something to repeat. -/
structure Reading where
  groups : Nat
  names : List Text
  repeatable : Bool
  deriving DecidableEq, Repr

/-- Take the next part of an expression. -/
def step? (r : Reading) : Text → Option (Reading × Text)
  | [] => none
  | '(' :: rest => do
    match ← groupStart? rest with
    | (.flags, rest) => return ({ r with repeatable := false }, rest)
    | (.part name, rest) =>
      if name.any r.names.contains then none
      else return (⟨r.groups + 1, name.toList ++ r.names, false⟩, rest)
  | ')' :: rest => if r.groups = 0 then none else some (⟨r.groups - 1, r.names, true⟩, rest)
  | '|' :: rest => some ({ r with repeatable := false }, rest)
  | '[' :: rest =>
    (closeClass? 1 (dropClassStart rest)).map fun rest => ({ r with repeatable := true }, rest)
  | '{' :: _ => none
  | '\\' :: rest => (escape? rest).map fun (_, rest) => ({ r with repeatable := true }, rest)
  | c :: rest =>
    if c = '*' ∨ c = '+' ∨ c = '?' then
      -- a question mark after an operator belongs to it
      if r.repeatable then some (r, (stripPrefix? ['?'] rest).getD rest) else none
    else some ({ r with repeatable := true }, rest)

/-- Whether the rest of an expression is well formed. -/
def isRest (r : Reading) (t : Text) : Bool :=
  if t.isEmpty then r.groups = 0
  else
    match step? r t with
    | none => false
    | some (r, rest) => if rest.length < t.length then isRest r rest else false
termination_by t.length

/-- Whether a text is a regular expression. -/
def isExpression (t : Text) : Bool := isRest ⟨0, [], false⟩ t

end MessageCatalog.Expression
