import MessageCatalog.Log
import MessageCatalog.Message.Reader

/-!
# Translations

The translations of one message are its templates by locale tag, one of them in the main locale.
A locale is served by its own template, by the first one in its language, or by that of the main
locale.
-/

namespace MessageCatalog

open Text

/-- The templates of one message with their locale tags, in tag order, and the tag of the main
locale. -/
structure Translations where
  templates : List (Text × Text)
  mainLocale : Text
  deriving DecidableEq, Repr

namespace Translations

/-- The template of the first tag with a property. -/
def firstTemplate? (templates : List (Text × Text)) (served : Text → Bool) : Option Text :=
  (templates.find? fun entry => served entry.1).map Prod.snd

/-- The first subtag of a tag. -/
def languageOf (tag : Text) : Text := tag.takeWhile (· != '-')

/-- The template that serves a locale: its own, else the first of its language, else the main
one. -/
def resolve? (t : Translations) (tag : LocaleTag) : Option Text :=
  (firstTemplate? t.templates (· == tag.text)).or <|
    (firstTemplate? t.templates fun other => languageOf other == tag.language).or <|
      firstTemplate? t.templates (· == t.mainLocale)

/-- The message for a locale. It never fails: a template that cannot be formatted stands for
itself, and without a template the text is empty; both are logged. -/
def render (t : Translations) (tag : LocaleTag) (args : List Argument) : Text × List LogEntry :=
  match t.resolve? tag with
  | none =>
    ([], [.warning
      s!"No template available for locale {tag.str} (main locale {t.mainLocale.str})"])
  | some template =>
    match Message.format tag args template with
    | .ok text => (text, [])
    | .error e =>
      (template, [.warning s!"Failed to format message for locale {tag.str}: {e.message}"])

/-- Read a message back in a locale. -/
def read (t : Translations) (setting : Message.Setting) (text : Text) :
    Except FormatError (List Argument) :=
  match t.resolve? setting.tag with
  | none => .error (.noTemplate setting.tag.text)
  | some template => Message.read setting template text

end Translations

end MessageCatalog
