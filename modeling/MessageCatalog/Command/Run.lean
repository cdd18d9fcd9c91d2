import MessageCatalog.Accessor.Source
import MessageCatalog.Command.Arguments
import MessageCatalog.Command.Report
import MessageCatalog.Settings.Loader
import MessageCatalog.Validation

/-!
# Running commands

A command reads the settings and the resource files of a file tree, and writes at most one file: a
report, or the source of the accessors. Everything that can fail without writing comes first, so a
run that fails before its file is written leaves the tree as it was.
-/

namespace MessageCatalog.Command

/-- Why a run fails. -/
inductive RunError where
  | settings (error : SettingsError)
  | bundle (error : BundleError)
  | generator (error : Accessor.GeneratorError)
  | validation (failure : ValidationFailed)
  | unwritable (path : Path) (error : FileError)

/-- The text about a file that cannot be written. -/
def unwritableMessage (path : Path) (error : FileError) : String :=
  s!"Failed to write {path.str}: {error.message}"

/-! ## Section 1: Before anything is written -/

/-- The log entry of a problem. -/
def problemEntry (severity : Severity) (e : SpecError) : LogEntry := ⟨severity.logLevel, e.render⟩

/-- The numbers of problems by kind, on one line. -/
def countSummary (specs : MessageSpecs) : String :=
  ", ".intercalate (specs.errorCounts.map fun (kind, count) => s!"{kind.name}={count}")

/-- What a run says about its bundle after validation. -/
def summary (bundle : Bundle) (severity : Severity) (specs : MessageSpecs) : String :=
  let name := bundle.name.str
  if specs.isClean then
    s!"Bundle '{name}' is consistent across {bundle.locales.length} locales"
  else
    s!"Bundle '{name}': {specs.errors.length} errors ({countSummary specs}) in {severity.display} mode"

/-- Load and validate the configured bundle, and log its problems. -/
def validateBundle (s : Settings) (severity : Severity) (files : FileTree) :
    Logged RunError MessageSpecs := do
  let bundle ← Logged.ofExcept (s.bundle.definition.build.mapError .bundle)
  let specs ← (bundle.loadAndValidate files).mapError .bundle
  Logged.logAll (specs.errors.map (problemEntry severity))
  Logged.log (.information (summary bundle severity specs))
  pure specs

/-- Let the problems of a bundle pass, or not. -/
def gate (severity : Severity) (specs : MessageSpecs) : Except RunError Unit :=
  (severity.gate specs.errors.length).mapError .validation

/-- Validate the configured bundle and generate the source of its accessors. -/
def generateSource (s : Settings) (severity : Severity) (files : FileTree) :
    Logged RunError Accessor.Generated := do
  Logged.ofExcept (s.generator.options.check.mapError .generator)
  let specs ← validateBundle s severity files
  Logged.ofExcept (gate severity specs)
  (Accessor.generate s.generator.options specs).mapError .generator

/-! ## Section 2: Writing -/

/-- A run on a file tree: the tree after it, and its result with what it logged. -/
abbrev Run (α : Type) := FileTree × Logged RunError α

/-- Write a text to a file. -/
def write (files : FileTree) (path : Path) (text : Text) : Run Unit :=
  match files.writeFile path (Text.Utf8.encode text) with
  | (files, .ok ()) => (files, pure ())
  | (files, .error e) => (files, Logged.fail (.unwritable path e))

/-- Write the report on some specifications, if one is wanted. -/
def writeReport (files : FileTree) (path : Option Path) (report : Report) : Run Unit :=
  match path with
  | none => (files, pure ())
  | some path =>
    let (files, written) := write files path report.render
    (files, do
      written
      Logged.log (.information s!"Wrote validation report to {path.str}"))

/-- Validate the configured bundle. The report is written also when the problems do not pass. -/
def runValidate (o : ValidateOptions) (s : Settings) (files : FileTree) : Run Unit :=
  let severity := o.severity.resolve s.severity
  let validated := validateBundle s severity files
  match validated.result with
  | .error e => (files, ⟨validated.logs, .error e⟩)
  | .ok specs =>
    let (files, reported) := writeReport files o.report (Report.ofSpecs specs severity)
    (files, do
      let _ ← validated
      reported
      Logged.ofExcept (gate severity specs))

/-- The log entries about accessors that were written. -/
def writtenEntries (path : Path) (generated : Accessor.Generated) : List LogEntry :=
  .information s!"Wrote {generated.accessors.length} accessors to {path.str}" ::
    if generated.skipped.isEmpty then []
    else [.warning s!"{generated.skipped.length} keys were skipped"]

/-- Generate the source of the accessors and write it. -/
def runGenerate (o : GenerateOptions) (s : Settings) (files : FileTree) : Run Unit :=
  let s := o.apply s
  let made := generateSource s (o.severity.resolve s.severity) files
  match made.result with
  | .error e => (files, ⟨made.logs, .error e⟩)
  | .ok generated =>
    let (files, written) := write files s.generator.output generated.source.toList
    (files, do
      let _ ← made
      written
      Logged.logAll (writtenEntries s.generator.output generated))

/-! ## Section 3: The whole command -/

/-- The settings of an invocation, with its log level in place of the configured one. -/
def loadSettings (env : Environment) (files : FileTree) (i : Invocation) :
    Logged RunError Settings := do
  let s ← (Settings.load env files i.settingsFile).mapError .settings
  pure { s with logging := { s.logging with level := i.logLevel.getD s.logging.level } }

/-- Do what an invocation asks for. -/
def execute (action : Action) (s : Settings) (files : FileTree) : Run Unit :=
  match action with
  | .validate options => runValidate options s files
  | .generate options => runGenerate options s files

/-- Run an invocation; gives the settings it ran with. -/
def run (env : Environment) (files : FileTree) (i : Invocation) : Run Settings :=
  let loaded := loadSettings env files i
  match loaded.result with
  | .error _ => (files, loaded)
  | .ok s =>
    let (files, done) := execute i.action s files
    (files, do
      let s ← loaded
      done
      pure s)

end MessageCatalog.Command
