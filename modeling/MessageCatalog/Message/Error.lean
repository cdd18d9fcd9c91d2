import MessageCatalog.Template.Basic

/-!
# Failures of formatting and reading

Why a message cannot be formatted or read back, and the text that tells it.
-/

namespace MessageCatalog

open Text

/-- Why a message cannot be formatted or read back. -/
inductive FormatError where
  /-- The template is malformed. -/
  | template (error : TemplateError)
  /-- An argument is of a kind that its placeholder cannot take. -/
  | argumentKind (index : Nat) (expected found : String)
  /-- A decimal pattern is malformed. -/
  | numberPattern (pattern : Text)
  /-- A date pattern is malformed. -/
  | datePattern (pattern : Text) (reason : String)
  /-- A choice pattern is malformed. -/
  | choicePattern (pattern : Text)
  /-- A text does not follow what it is read by. -/
  | unparseable (text : Text) (reason : String)
  /-- No template serves the locale. -/
  | noTemplate (locale : Text)
  deriving DecidableEq, Repr

namespace FormatError

/-- The text of a formatting failure. -/
def message : FormatError → String
  | .template error => s!"malformed template: {error.message}"
  | .argumentKind index expected found =>
    s!"argument {index} must be a {expected} value, got {found}"
  | .numberPattern pattern => s!"invalid number pattern '{pattern.str}'"
  | .datePattern pattern reason => s!"invalid date pattern '{pattern.str}': {reason}"
  | .choicePattern pattern => s!"invalid choice pattern '{pattern.str}'"
  | .unparseable text reason => s!"cannot parse '{text.str}': {reason}"
  | .noTemplate locale => s!"no template available for locale {locale.str}"

end FormatError

end MessageCatalog
