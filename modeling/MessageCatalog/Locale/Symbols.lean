import MessageCatalog.Locale.Tag

/-!
# Number symbols of a locale

The characters that divide and group digits, what stands before a percent sign, and the currency of
the region, keyed on language and region.
-/

namespace MessageCatalog

/-- The no-break space, which stands between numbers and units. -/
def noBreakSpace : Char := '\u00a0'

/-- The narrow no-break space, which groups digits in French and Russian. -/
def narrowNoBreakSpace : Char := '\u202f'

/-- A currency: its symbol, whether the symbol stands before the amount, whether a space then
follows it, and the number of fraction digits. -/
structure Currency where
  symbol : Text
  leads : Bool
  spaced : Bool
  digits : Nat
  deriving DecidableEq, Repr

/-- How a locale writes numbers. -/
structure Symbols where
  decimal : Char
  grouping : Char
  percentSeparator : Option Char
  currency : Currency
  deriving DecidableEq, Repr

namespace Symbols

/-- The regions that pay in euros. -/
def euroRegions : List String :=
  ["DE", "FR", "ES", "IT", "NL", "AT", "BE", "FI", "IE", "PT", "LU", "GR", "SK", "SI", "EE", "LV",
    "LT", "MT", "CY"]

/-- The decimal and the grouping character of a locale. -/
def separators (tag : LocaleTag) : Char × Char :=
  if tag.hasLanguage ["de", "it", "fr"] && tag.hasRegion ["CH", "LI"] then ('.', '\u2019')
  else if tag.hasLanguage ["fr", "ru"] then (',', narrowNoBreakSpace)
  else if tag.hasLanguage ["pl", "cs", "sv", "fi", "nb", "no", "uk"] then (',', noBreakSpace)
  else if tag.hasLanguage ["de", "es", "it", "pt", "nl", "da", "id", "tr"] then (',', '.')
  else ('.', ',')

/-- What a locale puts between a number and its percent sign. -/
def percentGap (tag : LocaleTag) : Option Char :=
  if tag.hasLanguage ["fr"] then some narrowNoBreakSpace
  else if tag.hasLanguage ["de", "es", "ru", "sv", "fi", "nb", "no", "da", "cs", "pl"] then
    some noBreakSpace
  else none

/-- The currency of a locale: that of its region, or the generic sign. -/
def currencyOf (tag : LocaleTag) : Currency :=
  if tag.hasRegion ["US", "CA", "AU", "NZ"] then ⟨"$".toList, true, false, 2⟩
  else if tag.hasRegion ["GB"] then ⟨"£".toList, true, false, 2⟩
  else if tag.hasRegion ["JP"] then ⟨"¥".toList, true, false, 0⟩
  else if tag.hasRegion ["CN"] then ⟨"¥".toList, true, false, 2⟩
  else if tag.hasRegion ["KR"] then ⟨"₩".toList, true, false, 0⟩
  else if tag.hasRegion ["IN"] then ⟨"₹".toList, true, false, 2⟩
  else if tag.hasRegion ["CH"] then ⟨"CHF".toList, true, true, 2⟩
  else if tag.hasRegion ["BR"] then ⟨"R$".toList, true, true, 2⟩
  else if tag.hasRegion ["RU"] then ⟨"₽".toList, false, true, 2⟩
  else if tag.hasRegion euroRegions then
    if tag.hasLanguage ["en"] then ⟨"€".toList, true, false, 2⟩
    else if tag.hasLanguage ["nl"] then ⟨"€".toList, true, true, 2⟩
    else ⟨"€".toList, false, true, 2⟩
  else if tag.hasLanguage ["en", "ja", "zh", "ko"] then ⟨"¤".toList, true, false, 2⟩
  else ⟨"¤".toList, false, true, 2⟩

/-- The symbols of a locale. -/
def ofLocale (tag : LocaleTag) : Symbols where
  decimal := (separators tag).1
  grouping := (separators tag).2
  percentSeparator := percentGap tag
  currency := currencyOf tag

end Symbols

end MessageCatalog
