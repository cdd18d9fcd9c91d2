import MessageCatalog.Locale.Tag

/-!
# Calendar names

The names of months, weekdays and halves of the day in a language.
-/

namespace MessageCatalog

/-- The names that dates are written with: months from January, weekdays from Monday, and the two
halves of the day. -/
structure CalendarNames where
  months : List Text
  monthsShort : List Text
  weekdays : List Text
  weekdaysShort : List Text
  dayPeriods : List Text
  deriving DecidableEq, Repr

namespace CalendarNames

/-- English names. -/
def english : CalendarNames where
  months := ["January", "February", "March", "April", "May", "June", "July", "August",
    "September", "October", "November", "December"].map String.toList
  monthsShort := ["Jan", "Feb", "Mar", "Apr", "May", "Jun", "Jul", "Aug", "Sep", "Oct", "Nov",
    "Dec"].map String.toList
  weekdays := ["Monday", "Tuesday", "Wednesday", "Thursday", "Friday", "Saturday",
    "Sunday"].map String.toList
  weekdaysShort := ["Mon", "Tue", "Wed", "Thu", "Fri", "Sat", "Sun"].map String.toList
  dayPeriods := ["AM", "PM"].map String.toList

/-- French names. -/
def french : CalendarNames where
  months := ["janvier", "février", "mars", "avril", "mai", "juin", "juillet", "août",
    "septembre", "octobre", "novembre", "décembre"].map String.toList
  monthsShort := ["janv.", "févr.", "mars", "avr.", "mai", "juin", "juil.", "août", "sept.",
    "oct.", "nov.", "déc."].map String.toList
  weekdays := ["lundi", "mardi", "mercredi", "jeudi", "vendredi", "samedi",
    "dimanche"].map String.toList
  weekdaysShort := ["lun.", "mar.", "mer.", "jeu.", "ven.", "sam.", "dim."].map String.toList
  dayPeriods := ["AM", "PM"].map String.toList

/-- German names. -/
def german : CalendarNames where
  months := ["Januar", "Februar", "März", "April", "Mai", "Juni", "Juli", "August", "September",
    "Oktober", "November", "Dezember"].map String.toList
  monthsShort := ["Jan.", "Feb.", "März", "Apr.", "Mai", "Juni", "Juli", "Aug.", "Sept.", "Okt.",
    "Nov.", "Dez."].map String.toList
  weekdays := ["Montag", "Dienstag", "Mittwoch", "Donnerstag", "Freitag", "Samstag",
    "Sonntag"].map String.toList
  weekdaysShort := ["Mo.", "Di.", "Mi.", "Do.", "Fr.", "Sa.", "So."].map String.toList
  dayPeriods := ["AM", "PM"].map String.toList

/-- Spanish names. -/
def spanish : CalendarNames where
  months := ["enero", "febrero", "marzo", "abril", "mayo", "junio", "julio", "agosto",
    "septiembre", "octubre", "noviembre", "diciembre"].map String.toList
  monthsShort := ["ene", "feb", "mar", "abr", "may", "jun", "jul", "ago", "sept", "oct", "nov",
    "dic"].map String.toList
  weekdays := ["lunes", "martes", "miércoles", "jueves", "viernes", "sábado",
    "domingo"].map String.toList
  weekdaysShort := ["lun", "mar", "mié", "jue", "vie", "sáb", "dom"].map String.toList
  dayPeriods := ["a. m.", "p. m."].map String.toList

/-- The names of a locale's language; English ones for a language without names of its own. -/
def ofLocale (tag : LocaleTag) : CalendarNames :=
  if tag.hasLanguage ["fr"] then french
  else if tag.hasLanguage ["de"] then german
  else if tag.hasLanguage ["es"] then spanish
  else english

end CalendarNames

end MessageCatalog
