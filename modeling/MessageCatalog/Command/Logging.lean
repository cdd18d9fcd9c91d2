import MessageCatalog.FileTree
import MessageCatalog.Settings.LogFilter

/-!
# Setting up logging

Before a run its log file is opened, and a subscriber is installed that takes the entries. Only one
subscriber can be installed in a process.
-/

namespace MessageCatalog.Command

/-- Why logging cannot be set up. -/
inductive LoggingError where
  | unopened (path : Path) (error : FileError)
  /-- There is a subscriber already. -/
  | alreadyInstalled
  deriving DecidableEq, Repr

/-- The text of a logging error. -/
def LoggingError.message : LoggingError → String
  | .unopened path error => s!"Failed to open log file '{path.str}': {error.message}"
  | .alreadyInstalled =>
    "Failed to install tracing subscriber: a global default trace dispatcher has already been set"

/-- Set up logging. The file is opened first; it is there afterwards, whether or not the subscriber
can be installed. -/
def setUpLogging (l : LoggingSettings) (installed : Bool) (files : FileTree) :
    FileTree × Except LoggingError Unit :=
  let opened : Except LoggingError FileTree := match l.file with
    | none => .ok files
    | some path => (files.openToAppend path).mapError (LoggingError.unopened path)
  match opened with
  | .error e => (files, .error e)
  | .ok files => (files, if installed then .error .alreadyInstalled else .ok ())

end MessageCatalog.Command
