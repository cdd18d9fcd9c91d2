import MessageCatalog.Document.Yaml.Spot
import MessageCatalog.Text.Quoted
import MessageCatalog.Text.Utf8

/-!
# YAML tags

A tag names the type of a value. It is written in full between angle brackets, or as a handle and a
suffix, where the handle stands for the beginning of the tag. Directives at the head of a document
say what a handle stands for, and which version of the notation is used.
-/

namespace MessageCatalog.Yaml

/-- A tag is a row of bytes: its characters, and those that are written as escapes. -/
abbrev Tag := List UInt8

/-- The tag with some characters. -/
def Tag.ofText (t : Text) : Tag := Text.Utf8.encode t

/-- How a tag is written: with a handle and a suffix, or in full. -/
structure TagName where
  handle : Option Text
  suffix : Tag
  deriving DecidableEq, Repr

/-- What stands at the head of a document: the version of the notation, or what a handle stands
for. -/
inductive Directive where
  | version (major minor : Nat)
  | handle (name : Text) (start : Tag)
  deriving DecidableEq, Repr

/-! ## Section 1: The characters of tags -/

/-- Whether a character may stand in a tag. A comma and square brackets may in one written in
full. -/
def isTagChar (inFull : Bool) (c : Char) : Bool :=
  isWordChar c || ";/?:@&=+$.!~*'()".toList.contains c || (inFull && ",[]".toList.contains c)

/-- The number of bytes that follow the first byte of a character. -/
def bytesAfter? (lead : Nat) : Option Nat :=
  if lead < 0x80 then some 0
  else if lead < 0xC0 then none
  else if lead < 0xE0 then some 1
  else if lead < 0xF0 then some 2
  else if lead < 0xF8 then some 3
  else none

/-- The number of bytes of a character that are still to come after one more byte. -/
def bytesLeft? (left byte : Nat) : Option Nat :=
  if left = 0 then bytesAfter? byte
  else if 0x80 ≤ byte ∧ byte < 0xC0 then some (left - 1)
  else none

/-- The bytes of a tag, and the rest of the row; `left` bytes of an escaped character are still to
come. -/
def tagBytes? (inFull : Bool) (left : Nat) : List Spot → Option (Tag × List Spot)
  | ⟨'%', _, _, _⟩ :: high :: low :: rest => do
    let byte ← Text.hexNumber? [high.char, low.char]
    let left ← bytesLeft? left byte
    (tagBytes? inFull left rest).map fun (tag, rest) => (byte.toUInt8 :: tag, rest)
  | s :: rest =>
    if left ≠ 0 ∨ s.char = '%' then none
    else if isTagChar inFull s.char then
      (tagBytes? inFull 0 rest).map fun (tag, rest) => (s.char.toUInt8 :: tag, rest)
    else some ([], s :: rest)
  | [] => if left = 0 then some ([], []) else none

/-- The bytes of a tag, of which there is one at least. A zero byte ends the tag. -/
def takeTag? (inFull : Bool) (t : List Spot) : Option (Tag × List Spot) := do
  let (tag, rest) ← tagBytes? inFull 0 t
  if tag = [] then none else return (tag.takeWhile (· ≠ 0), rest)

/-! ## Section 2: Tags -/

/-- The word at the front of a row, and the rest. -/
def takeWord (t : List Spot) : Text × List Spot :=
  (text (t.takeWhile fun s => isWordChar s.char), t.dropWhile fun s => isWordChar s.char)

/-- A tag after its exclamation mark, and the rest of the row. A mark alone is a tag in full. -/
def tagName? (t : List Spot) : Option (TagName × List Spot) :=
  match t with
  | ⟨'<', _, _, _⟩ :: rest => do
    match ← takeTag? true rest with
    | (tag, ⟨'>', _, _, _⟩ :: rest) => some (⟨none, tag⟩, rest)
    | _ => none
  | t =>
    match takeWord t with
    | (word, ⟨'!', _, _, _⟩ :: rest) =>
      (takeTag? false rest).map fun (tag, rest) => (⟨some ('!' :: word ++ ['!']), tag⟩, rest)
    | (word, rest) => do
      let (more, rest) ← tagBytes? false 0 rest
      let suffix := (Tag.ofText word ++ more).takeWhile (· ≠ 0)
      if suffix = [] then return (⟨none, Tag.ofText ['!']⟩, rest)
      else return (⟨some ['!'], suffix⟩, rest)

/-- A tag after its exclamation mark, which a gap must follow, or a comma between brackets. -/
def taggedGap? (inBrackets : Bool) (t : List Spot) : Option (TagName × List Spot) :=
  (tagName? t).filter fun (_, rest) =>
    atGap rest || (inBrackets && rest.head?.any fun s => s.char = ',')

/-! ## Section 3: Directives -/

/-- A number of at most nine digits, and the rest. -/
def takeNumber? (t : List Spot) : Option (Nat × List Spot) :=
  let digits := text (t.takeWhile fun s => s.char.isDigit)
  if digits = [] ∨ 9 < digits.length then none
  else some (Text.value digits, t.dropWhile fun s => s.char.isDigit)

/-- A version, and the rest. -/
def takeVersion? (t : List Spot) : Option (Directive × List Spot) := do
  match ← takeNumber? (dropGaps t) with
  | (major, ⟨'.', _, _, _⟩ :: rest) =>
    let (minor, rest) ← takeNumber? rest
    return (.version major minor, rest)
  | _ => none

/-- A handle, and the rest. -/
def takeHandle? : List Spot → Option (Text × List Spot)
  | ⟨'!', _, _, _⟩ :: rest =>
    match takeWord rest with
    | (word, ⟨'!', _, _, _⟩ :: rest) => some ('!' :: word ++ ['!'], rest)
    | (word, rest) => if word = [] then some (['!'], rest) else none
  | _ => none

/-- What a handle stands for, and the rest. -/
def takeMeaning? (t : List Spot) : Option (Directive × List Spot) := do
  let (name, rest) ← takeHandle? (dropGaps t)
  if !rest.head?.any fun s => isGap s.char then none
  else
    let (start, rest) ← takeTag? true (dropGaps rest)
    if atGap rest then return (.handle name start, rest) else none

/-- A directive after its percent sign, and the lines after it. -/
def directive? (t : List Spot) : Option (Directive × List Spot) := do
  let (word, rest) := takeWord t
  if !atGap rest then none
  else
    let (directive, rest) ←
      if word = "YAML".toList then takeVersion? rest
      else if word = "TAG".toList then takeMeaning? rest
      else none
    return (directive, ← endLine? rest)

/-! ## Section 4: Handles -/

/-- What the handles of a document stand for; the first meaning of a handle counts. -/
abbrev Handles := List (Text × Tag)

/-- The handles that need no directive. -/
def Handles.standard : Handles :=
  [(['!'], Tag.ofText ['!']), (['!', '!'], Tag.ofText "tag:yaml.org,2002:".toList)]

/-- Take one more directive to the handles. A document may have one version, which must be known,
and one meaning for each handle. -/
def Handles.add? : Bool × Handles → Directive → Option (Bool × Handles)
  | (versioned, handles), .version major minor =>
    if versioned ∨ major ≠ 1 ∨ (minor ≠ 1 ∧ minor ≠ 2) then none else some (true, handles)
  | (versioned, handles), .handle name start =>
    if handles.any fun h => h.1 = name then none else some (versioned, (name, start) :: handles)

/-- The handles of a document with some directives. -/
def Handles.ofDirectives? (directives : List Directive) : Option Handles := do
  let (_, handles) ← directives.foldlM Handles.add? (false, [])
  return handles ++ Handles.standard

/-- The tag that is meant by how it is written. -/
def TagName.resolve? (handles : Handles) (name : TagName) : Option Tag :=
  match name.handle with
  | none => some name.suffix
  | some handle => (handles.lookup handle).map (· ++ name.suffix)

end MessageCatalog.Yaml
