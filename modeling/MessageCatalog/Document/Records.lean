import MessageCatalog.Document.Basic
import MessageCatalog.Specs

/-!
# Reading records of the library

The values that reports and settings are made of, as they are read from documents.
-/

namespace MessageCatalog.Document

variable {δ : Type} [Document δ]

/-- Read a locale tag. -/
def readTag (d : δ) : Option LocaleTag := do (LocaleTag.parse (← text? d)).toOption

/-- Read a signature: the types of its arguments. -/
def readSignature (d : δ) : Option Signature :=
  (readItems (readConstant ArgType.ofName?) d).map Signature.mk

/-- Read a problem. It need not have a locale. -/
def readSpecError (d : δ) : Option SpecError := do
  let fields ← fields? ["key", "locale", "kind", "detail"] d
  return {
    key := ← readField fields "key" text? none
    locale := ← readField fields "locale" (readOptional readTag) (some none)
    kind := ← readField fields "kind" (readConstant SpecErrorKind.ofName?) none
    detail := (← readField fields "detail" text? none).str }

end MessageCatalog.Document
