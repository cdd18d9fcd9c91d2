import MessageCatalog.Text.Uppercase

/-!
# Names in generated source

The names that an accessor has in Rust source: a constant in capitals, and a type in camel case
made from the constant. Both are identifiers whatever characters the key holds; a name that would
begin with a digit or be a keyword is changed.

## Main statements

* `isShouted_of_mem_constantName` : a constant holds capitals, digits and underscores only
-/

namespace MessageCatalog.Accessor

open Text

/-- The keywords of Rust, those that are reserved for later included. -/
def keywords : List String :=
  ["as", "async", "await", "break", "const", "continue", "crate", "dyn", "else", "enum", "extern",
    "false", "fn", "for", "if", "impl", "in", "let", "loop", "match", "mod", "move", "mut", "pub",
    "ref", "return", "self", "Self", "static", "struct", "super", "trait", "true", "type", "unsafe",
    "use", "where", "while", "abstract", "become", "box", "do", "final", "gen", "macro", "override",
    "priv", "try", "typeof", "unsized", "virtual", "yield"]

/-- Whether a name is a keyword. -/
def isKeyword (name : Text) : Bool := keywords.any fun k => k.toList == name

/-- The constants of the bundle itself, which no accessor may take. -/
def reservedConstants : List Text := ["MAIN_LOCALE", "LOCALES", "KEYS"].map String.toList

/-- Whether a name begins with a digit. -/
def beginsWithDigit (name : Text) : Bool := name.head?.any Char.isDigit

/-- The constant of a key: its letters in capitals, an underscore for every other character, and one
before a leading digit. -/
def constantName (key : Text) : Text :=
  let name := shout key
  if beginsWithDigit name then '_' :: name else name

/-- Whether a constant can be used: it has something besides underscores and is not reserved. -/
def isUsableConstant (name : Text) : Bool :=
  name.any (· != '_') && !reservedConstants.contains name

/-- A part of a name between underscores: its first character as it is, the others as small
letters. -/
def camelPart : Text → Text
  | [] => []
  | c :: cs => c :: lower cs

/-- The type name of a constant: its parts in camel case. There is none without a letter or
digit. -/
def typeName? (constant : Text) : Option Text :=
  let name := (constant.splitOn '_').flatMap camelPart
  if name = [] then none
  else
    let name := if beginsWithDigit name then "Msg".toList ++ name else name
    some (if isKeyword name then name ++ ['_'] else name)

/-- An ASCII letter, a digit or an underscore. -/
def isWordChar (c : Char) : Bool := c.isAlphanum || c == '_'

/-- An identifier: a letter or underscore, then letters, digits and underscores, but not a lone
underscore. -/
def isIdentifier (name : Text) : Bool :=
  match name with
  | [] => false
  | c :: cs => (isLetter c || c == '_') && name != ['_'] && cs.all isWordChar

/-- Whether a module can have a name. -/
def isModuleName (name : Text) : Bool := isIdentifier name && !isKeyword name

/-- The keywords that a path may hold. -/
def pathKeywords : List Text := ["crate", "self", "super"].map String.toList

/-- The parts of a text between double colons. -/
def splitPath : Text → List Text
  | [] => [[]]
  | ':' :: ':' :: cs => [] :: splitPath cs
  | c :: cs => consFirst c (splitPath cs)

/-- Whether a text is a path: identifiers between double colons, with a double colon in front of
them or not. -/
def isPath (path : Text) : Bool :=
  let rest := (stripPrefix? [':', ':'] path).getD path
  rest != [] &&
    (splitPath rest).all fun part =>
      isIdentifier part && (!isKeyword part || pathKeywords.contains part)

/-- A constant holds capitals, digits and underscores only. -/
theorem isShouted_of_mem_constantName {key : Text} {c : Char} (h : c ∈ constantName key) :
    isShouted c = true := by
  simp only [constantName] at h
  split at h
  · rcases List.mem_cons.1 h with rfl | h
    · decide
    · exact shout_ascii h
  · exact shout_ascii h

end MessageCatalog.Accessor
