import MessageCatalog.Text.Basic

/-!
# Paths

A path is a text with slashes between its names. Joining keeps the text as it is written: an
absolute part replaces what stands before it, and no slash is doubled. The directories that a path
lies in are beginnings of it, as they are written.
-/

namespace MessageCatalog

/-- A path, as it is written. -/
abbrev Path := Text

namespace Path

/-- Whether a path begins at the root. -/
def isAbsolute (p : Path) : Bool := Text.startsWith ['/'] p

/-- A path below another one. -/
def join (base part : Path) : Path :=
  if isAbsolute part then part
  else if base = [] ∨ Text.endsWith ['/'] base then base ++ part
  else base ++ '/' :: part

/-- The steps of a path: its names, and single dots, which lead from a directory to itself. -/
def steps (p : Path) : List Text := (p.splitOn '/').filter fun name => name != []

/-- Whether a part of a path is one of its names; empty ones and single dots do not count. -/
def isName (part : Text) : Bool := part != [] && part != ['.']

/-- The names of a path. -/
def names (p : Path) : List Text := (p.splitOn '/').filter isName

/-- Whether a path can only be a directory because it ends with a slash. -/
def endsWithSlash (p : Path) : Bool := Text.endsWith ['/'] p

/-- The beginnings of a path that end in a name, the longest first. The path is given by its parts,
from the last one on. -/
def upward : List Text → List Path
  | [] => []
  | part :: before =>
    if isName part then Text.join ['/'] (before.reverse ++ [part]) :: upward before
    else upward before

/-- A path up to its last name, and the directories that it lies in, the innermost first. -/
def ancestors (p : Path) : List Path := upward (p.splitOn '/').reverse

/-- The directories that a path lies in, the innermost first. -/
def parents (p : Path) : List Path := (ancestors p).tail

end Path

end MessageCatalog
