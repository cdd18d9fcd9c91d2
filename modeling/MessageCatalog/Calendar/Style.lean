import MessageCatalog.Calendar.Reader

/-!
# Date styles

The style of a date or time placeholder is `short`, `medium`, `long`, `full` or an explicit date
pattern. A named style stands for a pattern of the locale.
-/

namespace MessageCatalog

open Text

/-- The style of a date or a time. -/
inductive DateStyle where
  | short
  | medium
  | long
  | full
  | pattern (source : Text)
  deriving DecidableEq, Repr

/-- What is written of a date and time. -/
inductive DatePart where
  | date
  | time
  deriving DecidableEq, Repr

namespace DateStyle

/-- Read the style part of a date or time placeholder. -/
def parse : Option Text → DateStyle
  | none => .medium
  | some raw =>
    let word := lower (trim raw)
    if word = [] ∨ word = "medium".toList then .medium
    else if word = "short".toList then .short
    else if word = "long".toList then .long
    else if word = "full".toList then .full
    else .pattern raw

/-- Locales that write the month first and tell the time on a twelve-hour clock. -/
def monthFirst (tag : LocaleTag) : Bool :=
  tag.hasLanguage ["en"] && (tag.region.isNone || tag.hasRegion ["US"])

/-- The date patterns of a locale for the short, the medium, the long and the full style. -/
def datePatterns (tag : LocaleTag) : String × String × String × String :=
  if monthFirst tag then ("M/d/yy", "MMM d, yyyy", "MMMM d, yyyy", "EEEE, MMMM d, yyyy")
  else if tag.hasLanguage ["en"] then
    ("dd/MM/yyyy", "d MMM yyyy", "d MMMM yyyy", "EEEE, d MMMM yyyy")
  else if tag.hasLanguage ["fr"] then
    ("dd/MM/yyyy", "d MMM yyyy", "d MMMM yyyy", "EEEE d MMMM yyyy")
  else if tag.hasLanguage ["de"] then
    ("dd.MM.yy", "dd.MM.yyyy", "d. MMMM yyyy", "EEEE, d. MMMM yyyy")
  else if tag.hasLanguage ["es"] then
    ("d/M/yy", "d MMM yyyy", "d 'de' MMMM 'de' yyyy", "EEEE, d 'de' MMMM 'de' yyyy")
  else if tag.hasLanguage ["it", "pt"] then
    ("dd/MM/yy", "dd/MM/yyyy", "dd/MM/yyyy", "dd/MM/yyyy")
  else if tag.hasLanguage ["ru"] then
    ("dd.MM.yy", "dd.MM.yyyy", "dd.MM.yyyy", "dd.MM.yyyy")
  else if tag.hasLanguage ["nl"] then
    ("dd-MM-yyyy", "dd-MM-yyyy", "dd-MM-yyyy", "dd-MM-yyyy")
  else if tag.hasLanguage ["ja", "zh"] then
    ("yyyy/MM/dd", "yyyy/MM/dd", "yyyy年M月d日", "yyyy年M月d日")
  else if tag.hasLanguage ["ko"] then
    ("yy. M. d.", "yyyy. M. d.", "yyyy년 M월 d일", "yyyy년 M월 d일")
  else ("yyyy-MM-dd", "yyyy-MM-dd", "yyyy-MM-dd", "yyyy-MM-dd")

/-- The time patterns of a locale: the short one and the one of the other styles. -/
def timePatterns (tag : LocaleTag) : String × String :=
  if monthFirst tag then ("h:mm a", "h:mm:ss a") else ("HH:mm", "HH:mm:ss")

/-- The text of the pattern that a style stands for. -/
def patternText (style : DateStyle) (part : DatePart) (tag : LocaleTag) : Text :=
  match style, part with
  | .pattern source, _ => source
  | .short, .date => (datePatterns tag).1.toList
  | .medium, .date => (datePatterns tag).2.1.toList
  | .long, .date => (datePatterns tag).2.2.1.toList
  | .full, .date => (datePatterns tag).2.2.2.toList
  | .short, .time => (timePatterns tag).1.toList
  | _, .time => (timePatterns tag).2.toList

/-- The pattern that a style stands for. -/
def toPattern (style : DateStyle) (part : DatePart) (tag : LocaleTag) : DatePattern :=
  DatePattern.parse (style.patternText part tag)

end DateStyle

namespace DateTime

/-- The text of the date or the time in a style. -/
def format (v : DateTime) (part : DatePart) (style : DateStyle) (tag : LocaleTag) :
    Except FormatError Text :=
  (style.toPattern part tag).format v (CalendarNames.ofLocale tag)

/-- Read a date or a time that was written in a style. -/
def read (currentYear : Int) (part : DatePart) (style : DateStyle) (tag : LocaleTag) (text : Text) :
    Except FormatError DateTime :=
  (style.toPattern part tag).read currentYear (CalendarNames.ofLocale tag) text

/-- The short date and the short time, as an untyped placeholder writes them. -/
def formatShort (v : DateTime) (tag : LocaleTag) : Except FormatError Text := do
  let date ← v.format .date .short tag
  let time ← v.format .time .short tag
  let separator := if tag.hasLanguage ["en"] then [',', ' '] else [' ']
  return date ++ separator ++ time

end DateTime

end MessageCatalog
