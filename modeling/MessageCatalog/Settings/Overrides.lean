import MessageCatalog.Settings.Basic

/-!
# Overrides from the environment

Variables of the environment take the place of single settings. They are read in a fixed order; one
that cannot be read ends the reading, and those before it stay in force.
-/

namespace MessageCatalog

open Text

/-- The variables of the environment of a run. -/
structure Environment where
  values : List (String × Text)
  deriving DecidableEq, Repr

namespace Environment

/-- The value of a variable. -/
def get? (env : Environment) (name : String) : Option Text := env.values.lookup name

end Environment

/-- A variable that does not hold a truth value. -/
structure OverrideError where
  name : String
  deriving DecidableEq, Repr

/-- The text of an override error. -/
def OverrideError.message (e : OverrideError) : String :=
  s!"Failed to parse environment variable '{e.name}': provided string was not `true` or `false`"

/-- The items of a list that is divided by commas; blanks around items and empty items do not
count. -/
def splitItems (value : Text) : List Text :=
  ((value.splitOn ',').map trim).filter fun item => !item.isEmpty

/-- The truth value that a variable spells; blanks around it do not count. -/
def flag? (value : Text) : Option Bool :=
  let word := trim value
  if word = "true".toList then some true
  else if word = "false".toList then some false
  else none

/-- The truth value of a variable, if the variable is there. -/
def Environment.flag (env : Environment) (name : String) : Except OverrideError (Option Bool) :=
  match env.get? name with
  | none => .ok none
  | some value =>
    match flag? value with
    | some flag => .ok (some flag)
    | none => .error ⟨name⟩

/-- The variables that override a setting, in the order in which they are read. -/
def overrideNames : List String := [
  "MSGSPEC_BUNDLE_NAME", "MSGSPEC_KEY_PREFIX", "MSGSPEC_MAIN_LOCALE", "MSGSPEC_LOCALES",
  "MSGSPEC_RESOURCES", "MSGSPEC_WARN_ONLY", "MSGSPEC_OUTPUT", "MSGSPEC_LOG_LEVEL"]

/-- The settings of a bundle with the overrides for it. -/
def BundleSettings.override (b : BundleSettings) (env : Environment) : BundleSettings where
  name := (env.get? "MSGSPEC_BUNDLE_NAME").getD b.name
  keyPrefix := (env.get? "MSGSPEC_KEY_PREFIX").getD b.keyPrefix
  mainLocale := (env.get? "MSGSPEC_MAIN_LOCALE").getD b.mainLocale
  locales := ((env.get? "MSGSPEC_LOCALES").map splitItems).getD b.locales
  resources := ((env.get? "MSGSPEC_RESOURCES").map splitItems).getD b.resources
  overridePolicy := b.overridePolicy

/-- The settings with the overrides of the environment, and whether all could be read. -/
def Settings.override (s : Settings) (env : Environment) : Settings × Except OverrideError Unit :=
  let withBundle : Settings := { s with bundle := s.bundle.override env }
  match env.flag "MSGSPEC_WARN_ONLY" with
  | .error e => (withBundle, .error e)
  | .ok warnOnly =>
    ({ withBundle with
        warnOnly := warnOnly.getD s.warnOnly
        generator := { s.generator with
          output := (env.get? "MSGSPEC_OUTPUT").getD s.generator.output }
        logging := { s.logging with
          level := (env.get? "MSGSPEC_LOG_LEVEL").getD s.logging.level } },
      .ok ())

end MessageCatalog
