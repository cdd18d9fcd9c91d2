import MessageCatalog.Accessor.Plan
import MessageCatalog.Path
import MessageCatalog.Settings.Basic

/-!
# Command line

A command line names a subcommand, `validate` or `generate`, and options for it. Two options, the
file of the settings and the log level, may stand before the subcommand or after it.

An option takes its value from the next argument, or from its own argument after an equals sign; the
value of an option of one letter may follow the letter directly. A value is checked when the next
option comes or the line ends, so that of two faults the one that is noticed first is reported.
-/

namespace MessageCatalog.Command

/-! ## Section 1: Invocations -/

/-- The flags that choose how severe problems are. -/
structure SeverityFlags where
  warnOnly : Bool
  strict : Bool
  deriving DecidableEq, Repr

/-- The severity that the flags choose, else the configured one. -/
def SeverityFlags.resolve (f : SeverityFlags) (configured : Severity) : Severity :=
  if f.warnOnly then .warnOnly else if f.strict then .strict else configured

/-- The options of `validate`. -/
structure ValidateOptions where
  severity : SeverityFlags
  report : Option Path
  deriving DecidableEq, Repr

/-- The options of `generate`. -/
structure GenerateOptions where
  severity : SeverityFlags
  output : Option Path
  shape : Option Accessor.Shape
  moduleName : Option Text
  deriving DecidableEq, Repr

/-- Settings with the options of `generate` in place of those of the generator. -/
def GenerateOptions.apply (o : GenerateOptions) (s : Settings) : Settings :=
  { s with generator := {
      output := o.output.getD s.generator.output
      options := { s.generator.options with
        shape := o.shape.getD s.generator.options.shape
        moduleName := o.moduleName.getD s.generator.options.moduleName } } }

/-- What a command does. -/
inductive Action where
  | validate (options : ValidateOptions)
  | generate (options : GenerateOptions)
  deriving DecidableEq, Repr

/-- A command line that was understood. -/
structure Invocation where
  settingsFile : Option Path
  logLevel : Option Text
  action : Action
  deriving DecidableEq, Repr

/-- Why a command line names no run. -/
inductive UsageError where
  | helpWanted
  | versionWanted
  /-- Nothing was given at all. -/
  | nothingGiven
  | subcommandMissing
  | unknownArgument
  | unknownSubcommand
  /-- An option lacks its value. -/
  | valueMissing
  /-- An option has a value that it does not take. -/
  | valueInvalid
  /-- An option is given twice, or beside one that excludes it. -/
  | conflict
  /-- A flag is given a value. -/
  | valueUnexpected
  deriving DecidableEq, Repr

/-! ## Section 2: Options -/

/-- The options of the command line. -/
inductive OptionKey where
  | settingsFile
  | logLevel
  | help
  | version
  | warnOnly
  | strict
  | report
  | output
  | shape
  | moduleName
  deriving DecidableEq, Repr

namespace OptionKey

/-- The name after two dashes. -/
def long : OptionKey → String
  | .settingsFile => "config"
  | .logLevel => "log-level"
  | .help => "help"
  | .version => "version"
  | .warnOnly => "warn-only"
  | .strict => "strict"
  | .report => "report"
  | .output => "output"
  | .shape => "shape"
  | .moduleName => "namespace"

/-- The letter after one dash. -/
def short? : OptionKey → Option Char
  | .settingsFile => some 'c'
  | .logLevel => some 'l'
  | .help => some 'h'
  | .version => some 'V'
  | .output => some 'o'
  | _ => none

/-- Whether an option takes a value. -/
def takesValue : OptionKey → Bool
  | .help | .version | .warnOnly | .strict => false
  | _ => true

/-- What is wrong with a value, if anything: a path must not be empty, and a shape must be one. -/
def check (key : OptionKey) (value : Text) : Except UsageError Unit :=
  match key with
  | .settingsFile | .report | .output => if value.isEmpty then .error .valueMissing else .ok ()
  | .shape =>
    match Accessor.Shape.parse value with
    | .ok _ => .ok ()
    | .error _ => .error .valueInvalid
  | _ => .ok ()

end OptionKey

/-- Where an option stands: before the subcommand, or after one. -/
inductive Scope where
  | top
  | validate
  | generate
  deriving DecidableEq, Repr

/-- The options that may stand somewhere. -/
def Scope.options : Scope → List OptionKey
  | .top => [.settingsFile, .logLevel, .help, .version]
  | .validate => [.settingsFile, .logLevel, .help, .warnOnly, .strict, .report]
  | .generate => [.settingsFile, .logLevel, .help, .warnOnly, .strict, .output, .shape, .moduleName]

/-- The option of a name after two dashes. -/
def Scope.long? (scope : Scope) (name : Text) : Option OptionKey :=
  scope.options.find? fun key => key.long == name.str

/-- The option of a letter after one dash. -/
def Scope.short? (scope : Scope) (letter : Char) : Option OptionKey :=
  scope.options.find? fun key => key.short? == some letter

/-! ## Section 3: Reading options -/

/-- The forms of an argument. -/
inductive Word where
  /-- Two dashes alone: no option follows. -/
  | dashes
  | long (name : Text) (value : Option Text)
  | short (letter : Char) (rest : Text)
  | other (text : Text)

/-- The form of an argument. -/
def Word.ofText : Text → Word
  | ['-', '-'] => .dashes
  | '-' :: '-' :: rest =>
    match rest.dropWhile (· != '=') with
    | [] => .long rest none
    | _ :: value => .long (rest.takeWhile (· != '=')) (some value)
  | '-' :: letter :: rest => .short letter rest
  | t => .other t

/-- The options read so far, and the last one while its value is awaited or not yet checked. -/
structure Progress where
  given : List (OptionKey × Text)
  pending : Option (OptionKey × Option Text)

namespace Progress

/-- Nothing is read yet. -/
def start : Progress := ⟨[], none⟩

/-- Whether an option awaits its value. -/
def isAwaiting (p : Progress) : Bool :=
  match p.pending with
  | some (_, none) => true
  | _ => false

/-- Take an option with its value. -/
def add (p : Progress) (key : OptionKey) (value : Text) : Except UsageError Progress := do
  if (p.given.lookup key).isSome then throw .conflict
  key.check value
  return { p with given := p.given ++ [(key, value)] }

/-- Take the last option, which must have its value by now. -/
def settle (p : Progress) : Except UsageError Progress :=
  match p.pending with
  | none => .ok p
  | some (_, none) => .error .valueMissing
  | some (key, some value) => add ⟨p.given, none⟩ key value

/-- Read an option that takes a value. -/
def readValued (p : Progress) (key : OptionKey) (value : Option Text) :
    Except UsageError Progress := do
  let p ← p.settle
  match value with
  | some value => p.add key value
  | none => return { p with pending := some (key, none) }

/-- Read a flag. Two flags end the reading. -/
def readFlag (p : Progress) (key : OptionKey) : Except UsageError Progress := do
  let p ← p.settle
  match key with
  | .help => throw .helpWanted
  | .version => throw .versionWanted
  | key => p.add key []

/-- Read an argument that is no value of an option. -/
def readWord (p : Progress) (scope : Scope) : Word → Except UsageError Progress
  | .long name value =>
    match scope.long? name with
    | none => .error .unknownArgument
    | some key =>
      if key.takesValue then p.readValued key value
      else if value.isSome then .error .valueUnexpected
      else p.readFlag key
  | .short letter rest =>
    match scope.short? letter with
    | none => .error .unknownArgument
    | some key =>
      if key.takesValue then
        let value : Text := (Text.stripPrefix? ['='] rest).getD rest
        p.readValued key (if rest.isEmpty then none else some value)
      else p.readFlag key
  | _ => .error .unknownArgument

/-- The value of an option that was given. -/
def value? (p : Progress) (key : OptionKey) : Option Text := p.given.lookup key

/-- Whether a flag was given. -/
def has (p : Progress) (key : OptionKey) : Bool := (p.value? key).isSome

end Progress

/-- Read the options after a subcommand. After two dashes nothing may come. -/
def readOptions (scope : Scope) (p : Progress) (closed : Bool) :
    List Text → Except UsageError Progress
  | [] => p.settle
  | arg :: rest =>
    if closed then .error .unknownArgument
    else
      match Word.ofText arg, p.pending with
      | .dashes, _ => readOptions scope p true rest
      -- an awaited value may be any text that is no option
      | .other text, some (key, none) =>
        readOptions scope { p with pending := some (key, some text) } false rest
      | word, _ => do readOptions scope (← p.readWord scope word) false rest

/-! ## Section 4: Reading the line -/

/-- The names of the subcommands, with the one that helps. -/
def subcommandNames : List Text := ["validate".toList, "generate".toList, "help".toList]

/-- The flags for the severity; only one of them may be given. -/
def severityFlags (p : Progress) : Except UsageError SeverityFlags :=
  if p.has .warnOnly ∧ p.has .strict then .error .conflict
  else .ok ⟨p.has .warnOnly, p.has .strict⟩

/-- Read what follows the name of a subcommand. -/
def readAction (name : Text) (args : List Text) : Except UsageError (Action × Progress) := do
  if name = "validate".toList then
    let p ← readOptions .validate .start false args
    return (.validate ⟨← severityFlags p, p.value? .report⟩, p)
  else
    let p ← readOptions .generate .start false args
    return (.generate {
      severity := ← severityFlags p
      output := p.value? .output
      shape := (p.value? .shape).bind fun text => (Accessor.Shape.parse text).toOption
      moduleName := p.value? .moduleName }, p)

/-- What the help about some names comes to: they must lead to a subcommand. -/
def helpAbout : List Text → UsageError
  | [] => .helpWanted
  | [name] => if name ∈ subcommandNames then .helpWanted else .unknownSubcommand
  | _ => .unknownSubcommand

/-- Read a command line from the arguments that are left. An option after the subcommand counts more
than the same one before it. -/
def parseFrom (p : Progress) (closed : Bool) : List Text → Except UsageError Invocation
  | [] => do
    let p ← p.settle
    throw (if p.given.isEmpty then .nothingGiven else .subcommandMissing)
  | arg :: rest =>
    if closed then .error (if arg ∈ subcommandNames then .unknownArgument else .unknownSubcommand)
    else if !p.isAwaiting ∧ arg ∈ subcommandNames then do
      if arg = "help".toList then throw (helpAbout rest)
      let (action, after) ← readAction arg rest
      -- a value before the subcommand is checked only now
      let before ← p.settle
      return {
        settingsFile := (after.value? .settingsFile).or (before.value? .settingsFile)
        logLevel := (after.value? .logLevel).or (before.value? .logLevel)
        action := action }
    else
      match Word.ofText arg, p.pending with
      | .dashes, _ => parseFrom p true rest
      | .other text, some (key, none) => parseFrom { p with pending := some (key, some text) } false rest
      | .other _, _ => .error .unknownSubcommand
      | word, _ => do parseFrom (← p.readWord .top word) false rest

/-- Read a command line. -/
def parse (args : List Text) : Except UsageError Invocation := parseFrom .start false args

end MessageCatalog.Command
