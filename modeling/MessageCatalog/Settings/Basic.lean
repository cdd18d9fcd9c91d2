import MessageCatalog.Accessor.Plan
import MessageCatalog.Bundle
import MessageCatalog.Severity

/-!
# Settings

What a run is configured with: the bundle, how severe its problems are, where and how the accessors
are generated, and how the run is logged. The texts are kept as they are given; they are checked by
the rules of `Settings.problems`, and again where they are used.
-/

namespace MessageCatalog

/-- The bundle of a run, as it is configured. -/
structure BundleSettings where
  name : Text
  keyPrefix : Text
  mainLocale : Text
  locales : List Text
  resources : List Path
  overridePolicy : OverridePolicy
  deriving DecidableEq, Repr

/-- Where the accessors are written, and how they are generated. -/
structure GeneratorSettings where
  output : Path
  options : Accessor.Options
  deriving DecidableEq, Repr

/-- How a run is logged. -/
structure LoggingSettings where
  /-- The directives that say what is logged. -/
  level : Text
  jsonFormat : Bool
  prettyFormat : Bool
  /-- The file that takes the log. -/
  file : Option Path
  includeTargets : Bool
  deriving DecidableEq, Repr

/-- The settings of a run. -/
structure Settings where
  bundle : BundleSettings
  warnOnly : Bool
  generator : GeneratorSettings
  logging : LoggingSettings
  deriving DecidableEq, Repr

/-! ## Section 1: Standard settings -/

/-- A bundle `messages` in British English. -/
def BundleSettings.standard : BundleSettings where
  name := "messages".toList
  keyPrefix := []
  mainLocale := "en-GB".toList
  locales := []
  resources := ["src/main/resources".toList]
  overridePolicy := .lastRootWins

/-- A generated file among the other results of a build. -/
def GeneratorSettings.standard : GeneratorSettings where
  output := "target/generated/messages.rs".toList
  options := .standard

/-- Plain lines from `info` on. -/
def LoggingSettings.standard : LoggingSettings where
  level := "info".toList
  jsonFormat := false
  prettyFormat := false
  file := none
  includeTargets := false

/-- The settings of a run that is not configured. -/
def Settings.standard : Settings where
  bundle := .standard
  warnOnly := false
  generator := .standard
  logging := .standard

/-! ## Section 2: What settings stand for -/

/-- The definition of the configured bundle. -/
def BundleSettings.definition (b : BundleSettings) : BundleDefinition where
  name := b.name
  keyPrefix := b.keyPrefix
  mainLocale := some b.mainLocale
  locales := b.locales
  roots := b.resources
  overridePolicy := b.overridePolicy

/-- How severe problems are, as it is configured. -/
def Settings.severity (s : Settings) : Severity := .ofWarnOnly s.warnOnly

end MessageCatalog
