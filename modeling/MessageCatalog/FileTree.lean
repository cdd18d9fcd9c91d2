import MessageCatalog.Path
import MessageCatalog.Table
import MessageCatalog.Text.Utf8

/-!
# File trees

The files and directories of a system, as a table from places to what is there, and the working
directory among them. A place is the list of names that leads to it from the root; a path leads to
it from the root or from the working directory. This module holds the few operations on files that
the library needs, each as a function from tree to tree that fails as an operating system does.
-/

namespace MessageCatalog

/-- Why an operation on a file fails. -/
inductive FileError where
  | notFound
  | notDirectory
  | isDirectory
  | alreadyExists
  /-- A name, or the whole path, has too many bytes. -/
  | nameTooLong
  /-- The character that ends a path for the system stands inside the path. -/
  | nulInPath
  /-- The bytes of the file are no text. -/
  | notText (error : Text.Utf8Error)
  deriving DecidableEq, Repr

/-- The text of a file error. -/
def FileError.message : FileError → String
  | .notFound => "No such file or directory (os error 2)"
  | .notDirectory => "Not a directory (os error 20)"
  | .isDirectory => "Is a directory (os error 21)"
  | .alreadyExists => "File exists (os error 17)"
  | .nameTooLong => "File name too long (os error 36)"
  | .nulInPath => "file name contained an unexpected NUL byte"
  | .notText error => error.message

/-- What is at a place. -/
inductive FileEntry where
  | file (content : List UInt8)
  | directory
  deriving DecidableEq, Repr

/-- A place: the names that lead to it from the root. -/
abbrev Place := List Text

instance : Std.TransOrd Place := inferInstance

/-- The files and directories of a system, and the directory that paths begin at which do not begin
at the root. -/
structure FileTree where
  entries : Table Place FileEntry
  workingDirectory : Place

namespace FileTree

/-- The tree of nothing but the root. -/
def empty : FileTree := ⟨Table.empty, []⟩

instance : Inhabited FileTree := ⟨empty⟩

/-- What is at a place. The root is always there. -/
def found? (tree : FileTree) (place : Place) : Option FileEntry :=
  if place = [] then some .directory else tree.entries.get? place

/-- Put an entry at a place. -/
def put (tree : FileTree) (place : Place) (entry : FileEntry) : FileTree :=
  { tree with entries := tree.entries.insert place entry }

/-- The tree of nothing but a working directory, and those that it lies in. -/
def workingIn (place : Place) : FileTree :=
  (List.range place.length).foldl (fun tree n => tree.put (place.take (n + 1)) .directory)
    { empty with workingDirectory := place }

/-! ## Section 1: Places of paths -/

/-- The most bytes of a name. -/
def nameLimit : Nat := 255

/-- The most bytes of a path. -/
def pathLimit : Nat := 4095

/-- Whether a text has at most some number of bytes. -/
def fits (limit : Nat) (t : Text) : Bool := (Text.Utf8.encode t).length ≤ limit

/-- The place that a name leads to from a directory. There is no way out of the root. -/
def next (place : Place) (name : Text) : Place :=
  if name = ['.'] then place else if name = ['.', '.'] then place.dropLast else place ++ [name]

/-- Look for what is at a place. -/
def lookup (tree : FileTree) (place : Place) : Except FileError FileEntry :=
  if place.getLast?.all (fits nameLimit) then
    match tree.found? place with
    | some entry => .ok entry
    | none => .error .notFound
  else .error .nameTooLong

/-- Follow some names from a place. Every name but the last must lead to a directory; the last one
need not lead anywhere. One dot stays, and two dots lead back. -/
def locate (tree : FileTree) (place : Place) : List Text → Except FileError Place
  | [] => .ok place
  | name :: rest =>
    match tree.lookup place with
    | .error e => .error e
    | .ok (.file _) => .error .notDirectory
    | .ok .directory => locate tree (next place name) rest

/-- Where a path begins. -/
def start (tree : FileTree) (path : Path) : Place :=
  if Path.isAbsolute path then [] else tree.workingDirectory

/-- The place that a path leads to, whether or not anything is there. -/
def resolve (tree : FileTree) (path : Path) : Except FileError Place :=
  if '\x00' ∈ path then .error .nulInPath
  else if path = [] then .error .notFound
  else if fits pathLimit path then tree.locate (tree.start path) (Path.steps path)
  else .error .nameTooLong

/-- What is at the end of a path. -/
def find (tree : FileTree) (path : Path) : Except FileError (Place × FileEntry) := do
  let place ← tree.resolve path
  match ← tree.lookup place with
  | .file content =>
    if Path.endsWithSlash path then .error .notDirectory else .ok (place, .file content)
  | .directory => .ok (place, .directory)

/-- Whether there is anything at the end of a path. -/
def pathExists (tree : FileTree) (path : Path) : Bool := (tree.find path).isOk

/-- Whether there is a directory at the end of a path. -/
def isDirectory (tree : FileTree) (path : Path) : Bool :=
  match tree.find path with
  | .ok (_, .directory) => true
  | _ => false

/-! ## Section 2: Reading -/

/-- The bytes of a file. -/
def readBytes (tree : FileTree) (path : Path) : Except FileError (List UInt8) := do
  match ← tree.find path with
  | (_, .file content) => .ok content
  | (_, .directory) => .error .isDirectory

/-- The text of a file. -/
def readText (tree : FileTree) (path : Path) : Except FileError Text := do
  match Text.Utf8.decode (← tree.readBytes path) with
  | .ok text => .ok text
  | .error e => .error (.notText e)

/-! ## Section 3: Writing -/

/-- Make one directory, in a directory that is there. -/
def makeDirectory (tree : FileTree) (path : Path) : Except FileError FileTree := do
  let place ← tree.resolve path
  match tree.lookup place with
  | .ok _ => .error .alreadyExists
  | .error .notFound => .ok (tree.put place .directory)
  | .error e => .error e

/-- Make a directory, given with those that it lies in, the innermost first, as far as they are
missing. The tree is the one after those that could be made, whether or not all could. -/
def makeDirectories (tree : FileTree) : List Path → FileTree × Except FileError Unit
  | [] => (tree, .ok ())
  | path :: around =>
    match tree.makeDirectory path with
    | .ok tree => (tree, .ok ())
    | .error .notFound =>
      -- the directory around it is missing as well, and is made first
      match makeDirectories tree around with
      | (tree, .error e) => (tree, .error e)
      | (tree, .ok ()) =>
        match tree.makeDirectory path with
        | .ok tree => (tree, .ok ())
        | .error e => (tree, if tree.isDirectory path then .ok () else .error e)
    | .error e => (tree, if tree.isDirectory path then .ok () else .error e)

/-- Open a file in a directory that is there, and change its content; a missing file is made, and
has been empty. A path that ends with a slash is refused before anything is looked for there. -/
def change (tree : FileTree) (path : Path) (content : List UInt8 → List UInt8) :
    Except FileError FileTree := do
  let place ← tree.resolve path
  if Path.endsWithSlash path then .error .isDirectory
  else
    match tree.lookup place with
    | .ok .directory => .error .isDirectory
    | .ok (.file old) => .ok (tree.put place (.file (content old)))
    | .error .notFound => .ok (tree.put place (.file (content [])))
    | .error e => .error e

/-- Write a file into a directory that is there. -/
def writeBytes (tree : FileTree) (path : Path) (content : List UInt8) :
    Except FileError FileTree := tree.change path fun _ => content

/-- Write a file, making the directories it lies in first. -/
def writeFile (tree : FileTree) (path : Path) (content : List UInt8) :
    FileTree × Except FileError Unit :=
  match tree.makeDirectories (Path.parents path) with
  | (tree, .error e) => (tree, .error e)
  | (tree, .ok ()) =>
    match tree.writeBytes path content with
    | .ok tree => (tree, .ok ())
    | .error e => (tree, .error e)

/-- Open a file to add to it: it is made when it is missing, and its content stays. -/
def openToAppend (tree : FileTree) (path : Path) : Except FileError FileTree := tree.change path id

/-- Remove what is at the end of a path, with everything below it. -/
def remove (tree : FileTree) (path : Path) : FileTree :=
  match tree.find path with
  | .ok (place, _) =>
    { tree with entries :=
        Table.ofList (tree.entries.entries.filter fun e => !place.isPrefixOf e.1) }
  | .error _ => tree

end FileTree

end MessageCatalog
