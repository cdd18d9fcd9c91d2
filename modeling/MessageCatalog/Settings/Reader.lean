import MessageCatalog.Document.Yaml.Reader
import MessageCatalog.Settings.Basic

/-!
# Reading settings

Settings are read from a document with one record for each part of them. What is not given has its
standard value.
-/

namespace MessageCatalog

open Document

variable {δ : Type} [Document δ]

/-- Read the options of the generator from the fields of a record. -/
def Accessor.Options.readFields (fields : List (String × δ)) : Option Accessor.Options := do
  return {
    shape := ← readField fields "shape" (readConstant Accessor.Shape.ofName?)
      (some Accessor.Options.standard.shape)
    moduleName := ← readField fields "namespace" text? (some Accessor.Options.standard.moduleName)
    runtimePath := ← readField fields "runtime_path" text?
      (some Accessor.Options.standard.runtimePath) }

/-- Read the options of the generator. -/
def Accessor.Options.read (d : δ) : Option Accessor.Options :=
  (fields? ["shape", "namespace", "runtime_path"] d).bind Accessor.Options.readFields

/-- Read the settings of a bundle. -/
def BundleSettings.read (d : δ) : Option BundleSettings := do
  let fields ← fields?
    ["name", "key_prefix", "main_locale", "locales", "resources", "override_policy"] d
  return {
    name := ← readField fields "name" text? (some standard.name)
    keyPrefix := ← readField fields "key_prefix" text? (some standard.keyPrefix)
    mainLocale := ← readField fields "main_locale" text? (some standard.mainLocale)
    locales := ← readField fields "locales" (readItems text?) (some standard.locales)
    resources := ← readField fields "resources" (readItems text?) (some standard.resources)
    overridePolicy := ← readField fields "override_policy" (readConstant OverridePolicy.ofName?)
      (some standard.overridePolicy) }

/-- Read whether problems are only warned about. -/
def readWarnOnly (d : δ) : Option Bool := do
  readField (← fields? ["warn_only"] d) "warn_only" truth? (some Settings.standard.warnOnly)

/-- Read the settings of the generator. -/
def GeneratorSettings.read (d : δ) : Option GeneratorSettings := do
  let fields ← fields? ["output", "shape", "namespace", "runtime_path"] d
  return {
    output := ← readField fields "output" text? (some standard.output)
    options := ← Accessor.Options.readFields fields }

/-- Read the settings of logging. -/
def LoggingSettings.read (d : δ) : Option LoggingSettings := do
  let fields ← fields? ["level", "json_format", "pretty_format", "file_path", "include_targets"] d
  return {
    level := ← readField fields "level" text? (some standard.level)
    jsonFormat := ← readField fields "json_format" truth? (some standard.jsonFormat)
    prettyFormat := ← readField fields "pretty_format" truth? (some standard.prettyFormat)
    file := ← readField fields "file_path" (readOptional text?) (some standard.file)
    includeTargets := ← readField fields "include_targets" truth? (some standard.includeTargets) }

/-- Read the settings of a run. -/
def Settings.read (d : δ) : Option Settings := do
  let fields ← fields? ["bundle", "validation", "generator", "logging"] d
  return {
    bundle := ← readField fields "bundle" BundleSettings.read (some standard.bundle)
    warnOnly := ← readField fields "validation" readWarnOnly (some standard.warnOnly)
    generator := ← readField fields "generator" GeneratorSettings.read (some standard.generator)
    logging := ← readField fields "logging" LoggingSettings.read (some standard.logging) }

/-- Read the settings of a text. A blank text stands for the standard settings. -/
def Settings.parse (t : Text) : Option Settings :=
  if (Text.trim t).isEmpty then some .standard else (Yaml.parse t).bind Settings.read

end MessageCatalog
