import MessageCatalog.Accessor.Plan
import MessageCatalog.Message.Translations

/-!
# Calling accessors

What a generated accessor does when it is called: it takes the arguments one by one, formats the
message for a locale, and reads a message back into as many arguments as its signature has.
-/

namespace MessageCatalog.Accessor

/-- A message whose arguments are being given. -/
structure Call where
  plan : Plan
  mainLocale : Text
  arguments : List Argument

namespace Call

/-- A message whose arguments are all missing. -/
def start (plan : Plan) (mainLocale : Text) : Call :=
  ⟨plan, mainLocale, List.replicate plan.signature.size .missing⟩

/-- The translations of the message. -/
def translations (c : Call) : Translations := ⟨c.plan.templates, c.mainLocale⟩

/-- Give one argument. -/
def set (c : Call) (index : Nat) (argument : Argument) : Call :=
  { c with arguments := c.arguments.set index argument }

/-- The message for a locale. -/
def render (c : Call) (tag : LocaleTag) : Text × List LogEntry :=
  c.translations.render tag c.arguments

/-- As many arguments as wanted: those at the end are missing, or left out. -/
def resize (count : Nat) (arguments : List Argument) : List Argument :=
  (arguments ++ List.replicate (count - arguments.length) Argument.missing).take count

/-- Read a message back. -/
def read (c : Call) (setting : Message.Setting) (text : Text) :
    Except FormatError (List Argument) :=
  (c.translations.read setting text).map (resize c.plan.signature.size)

end Call

end MessageCatalog.Accessor
