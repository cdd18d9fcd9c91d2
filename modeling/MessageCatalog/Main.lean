import MessageCatalog.Command.Logging
import MessageCatalog.Command.Run

/-!
# The program

Reads what a command may need from the disk into a file tree, with the working directory at its
place, runs the command on the tree, prints what it logged, and writes back the files that the
command made or changed.
-/

namespace MessageCatalog.Program

open Command

/-- The usage of the program. -/
def usage : String :=
  "Usage: msgspec [-c FILE] [-l LEVEL] validate [--warn-only | --strict] [--report FILE]\n" ++
  "       msgspec [-c FILE] [-l LEVEL] generate [--warn-only | --strict] [-o FILE]\n" ++
  "                                            [--shape SHAPE] [--namespace NAME]"

/-- What is printed about a command line that names no run. -/
def usageText : UsageError → String
  | .helpWanted | .nothingGiven => usage
  | .versionWanted => "msgspec 0.1.0"
  | .subcommandMissing => "error: a subcommand is missing\n" ++ usage
  | .unknownArgument => "error: unexpected argument\n" ++ usage
  | .unknownSubcommand => "error: unrecognized subcommand\n" ++ usage
  | .valueMissing => "error: a value is required\n" ++ usage
  | .valueInvalid => "error: invalid value\n" ++ usage
  | .conflict => "error: arguments exclude each other\n" ++ usage
  | .valueUnexpected => "error: unexpected value\n" ++ usage

/-- The text of a failure. -/
def failureText : RunError → String
  | .settings (.unreadable path e) => unreadableSettingsMessage path e
  | .settings .malformed => "Failed to parse YAML configuration"
  | .settings (.override e) => e.message
  | .settings (.invalid problems) =>
    "Configuration validation failed: " ++ "; ".intercalate (problems.map SettingProblem.message)
  | .bundle e => e.message
  | .generator e => e.message
  | .validation f => f.message
  | .unwritable path e => unwritableMessage path e

/-- The files that the settings may come from. -/
def settingsFiles (env : Environment) (i : Invocation) : List Path :=
  match i.settingsFile.or (env.get? "MSGSPEC_CONFIG_PATH") with
  | some path => [path]
  | none => Settings.fileNames

/-- The resource files of the configured bundle. -/
def resourceFiles (s : Settings) : List Path :=
  match s.bundle.definition.build with
  | .ok b => b.locales.flatMap fun tag => b.roots.map fun root => b.resourcePath root tag
  | .error _ => []

/-- The files that a command writes. -/
def outputFiles (s : Settings) : Action → List Path
  | .validate options => options.report.toList
  | .generate options => [(options.apply s).generator.output]

/-- A place on the disk. -/
def diskPath (place : Place) := System.mkFilePath ("" :: place.map Text.str)

/-- Read what is at a place of the disk into a tree. -/
def readPlace (tree : FileTree) (place : Place) : IO FileTree := do
  let path := diskPath place
  if ← path.isDir then return tree.put place .directory
  else if ← path.pathExists then
    return tree.put place (.file (← IO.FS.readBinFile path).toList)
  else return tree

/-- The places that some names lead through from a place. -/
def placesOf (place : Place) : List Text → List Place
  | [] => []
  | name :: rest =>
    let next := FileTree.next place name
    next :: placesOf next rest

/-- Read a path of the disk, and the directories it leads through, into a tree. -/
def readPath (tree : FileTree) (path : Path) : IO FileTree :=
  (placesOf (tree.start path) (Path.names path)).foldlM readPlace tree

/-- Write the entries of a tree that another one does not have. -/
def writeChanges (before after : FileTree) : IO Unit := do
  for (place, entry) in after.entries.entries do
    if before.entries.get? place != some entry then
      match entry with
      | .directory => IO.FS.createDirAll (diskPath place)
      | .file content => IO.FS.writeBinFile (diskPath place) ⟨content.toArray⟩

/-- The overrides that are set. -/
def readEnvironment : IO Environment := do
  let names := "MSGSPEC_CONFIG_PATH" :: overrideNames
  let values ← names.filterMapM fun name => do
    return (← IO.getEnv name).map fun value => (name, value.toList)
  return ⟨values⟩

/-- Run an invocation on the disk. -/
def runOnDisk (i : Invocation) : IO UInt32 := do
  let env ← readEnvironment
  let here ← IO.currentDir
  let tree := FileTree.workingIn (Path.names here.toString.toList)
  let withSettings ← (settingsFiles env i).foldlM readPath tree
  let inputs := match (loadSettings env withSettings i).result with
    | .ok s => resourceFiles s ++ outputFiles s i.action
    | .error _ => []
  let files ← inputs.foldlM readPath withSettings
  let (after, done) := run env files i
  writeChanges files after
  for entry in done.logs do
    IO.eprintln s!"{entry.level.name} {entry.message}"
  match done.result with
  | .ok _ => return 0
  | .error e =>
    IO.eprintln s!"Error: {failureText e}"
    return 1

end MessageCatalog.Program

open MessageCatalog Program in
/-- Run the command that the arguments name. -/
def main (args : List String) : IO UInt32 := do
  match Command.parse (args.map String.toList) with
  | .ok invocation => runOnDisk invocation
  | .error e =>
    IO.eprintln (usageText e)
    return if e = .helpWanted ∨ e = .versionWanted then 0 else 2
