import MessageCatalog.Calendar.DateTime
import MessageCatalog.Calendar.Names
import MessageCatalog.Message.Error

/-!
# Date patterns

A date pattern is a row of tokens: a run of one letter asks for a field of the date, every other
character is literal. Quoted letters are literal too, and two quotes in a row are one literal
quote. A pattern is at fault when it has a letter without meaning or leaves a quote open; the first
such letter is what is reported.

## Main statements

* `format_eq_error_iff` : a date cannot be written exactly when the pattern is at fault
-/

namespace MessageCatalog

open Text

/-! ## Section 1: Tokens -/

/-- The fields of a date and time that a pattern can ask for. -/
inductive DateField where
  | year
  | month
  | day
  | weekday
  /-- The hour from 0 to 23. -/
  | hour
  /-- The hour from 1 to 24. -/
  | hourFromOne
  /-- The hour of the half day from 1 to 12. -/
  | halfHour
  /-- The hour of the half day from 0 to 11. -/
  | halfHourFromZero
  | minute
  | second
  | millisecond
  | dayPeriod
  deriving DecidableEq, Repr

namespace DateField

/-- The field that a pattern letter asks for. -/
def ofLetter? : Char → Option DateField
  | 'y' => some .year
  | 'M' => some .month
  | 'L' => some .month
  | 'd' => some .day
  | 'E' => some .weekday
  | 'H' => some .hour
  | 'k' => some .hourFromOne
  | 'h' => some .halfHour
  | 'K' => some .halfHourFromZero
  | 'm' => some .minute
  | 's' => some .second
  | 'S' => some .millisecond
  | 'a' => some .dayPeriod
  | _ => none

end DateField

/-- A piece of a date pattern. A field has the number of its letters, and `abuts` when another
letter follows at once. -/
inductive DateToken where
  | literal (c : Char)
  | field (field : DateField) (count : Nat) (abuts : Bool)
  | unknown (letter : Char)
  deriving DecidableEq, Repr

/-- A date pattern: its text, its tokens, and whether a quote stays open. -/
structure DatePattern where
  source : Text
  tokens : List DateToken
  quoteOpen : Bool
  deriving DecidableEq, Repr

namespace DatePattern

/-- Split a pattern into tokens; the flag tells whether a quote stays open. -/
def scan (inQuote : Bool) (t : Text) : List DateToken × Bool :=
  match t with
  | [] => ([], inQuote)
  | '\'' :: '\'' :: cs =>
    let (tokens, quoteOpen) := scan inQuote cs
    (.literal '\'' :: tokens, quoteOpen)
  | c :: cs =>
    if c = '\'' then scan (!inQuote) cs
    else if inQuote || !isLetter c then
      let (tokens, quoteOpen) := scan inQuote cs
      (.literal c :: tokens, quoteOpen)
    else
      -- a run of one letter is one field
      let count := (cs.takeWhile (· == c)).length + 1
      let rest := cs.dropWhile (· == c)
      let token := match DateField.ofLetter? c with
        | some field => .field field count (rest.head?.any isLetter)
        | none => .unknown c
      let (tokens, quoteOpen) := scan inQuote rest
      (token :: tokens, quoteOpen)
termination_by t.length
decreasing_by
  all_goals simp only [List.length_cons]
  all_goals first
    | omega
    | exact Nat.lt_succ_of_le (List.dropWhile_suffix _).length_le

/-- Read a pattern. -/
def parse (source : Text) : DatePattern :=
  let (tokens, quoteOpen) := scan false source
  ⟨source, tokens, quoteOpen⟩

/-- What is wrong with an unknown letter. -/
def unknownReason (letter : Char) : String := s!"unsupported pattern letter '{letter}'"

/-- What is wrong with an open quote. -/
def openQuoteReason : String := "unterminated quote"

/-- The first unknown letter among some tokens. -/
def unknownIn? (tokens : List DateToken) : Option Char :=
  tokens.findSome? fun
    | .unknown letter => some letter
    | _ => none

/-- The first unknown letter of a pattern. -/
def unknown? (p : DatePattern) : Option Char := unknownIn? p.tokens

/-- What is wrong with a pattern. -/
def fault? (p : DatePattern) : Option String :=
  match p.unknown? with
  | some letter => some (unknownReason letter)
  | none => if p.quoteOpen then some openQuoteReason else none

/-! ## Section 2: Writing a date -/

/-- The name at a place of a list. -/
def nameAt (names : List Text) (i : Nat) : Text := names.getD i []

/-- The text of a field. -/
def formatField (v : DateTime) (names : CalendarNames) (count : Nat) : DateField → Text
  | .year =>
    if count = 2 then padZeros 2 (numeral (v.date.year % 100).toNat)
    else paddedInteger count v.date.year
  | .month =>
    if 4 ≤ count then nameAt names.months (v.date.month - 1)
    else if count = 3 then nameAt names.monthsShort (v.date.month - 1)
    else padZeros count (numeral v.date.month)
  | .day => padZeros count (numeral v.date.day)
  | .weekday =>
    if 4 ≤ count then nameAt names.weekdays v.date.weekday
    else nameAt names.weekdaysShort v.date.weekday
  | .hour => padZeros count (numeral v.time.hour)
  | .hourFromOne => padZeros count (numeral (if v.time.hour = 0 then 24 else v.time.hour))
  | .halfHour =>
    let hour := v.time.hour % 12
    padZeros count (numeral (if hour = 0 then 12 else hour))
  | .halfHourFromZero => padZeros count (numeral (v.time.hour % 12))
  | .minute => padZeros count (numeral v.time.minute)
  | .second => padZeros count (numeral v.time.second)
  | .millisecond => padZeros count (numeral v.time.milliseconds)
  | .dayPeriod => nameAt names.dayPeriods (if 12 ≤ v.time.hour then 1 else 0)

/-- The text of a token. -/
def formatToken (v : DateTime) (names : CalendarNames) : DateToken → Text
  | .literal c => [c]
  | .field field count _ => formatField v names count field
  | .unknown _ => []

/-- The text of a date in a pattern. -/
def format (p : DatePattern) (v : DateTime) (names : CalendarNames) : Except FormatError Text :=
  match p.fault? with
  | some reason => .error (.datePattern p.source reason)
  | none => .ok (p.tokens.flatMap (formatToken v names))

/-- A date cannot be written exactly when the pattern is at fault, and that fault is reported. -/
theorem format_eq_error_iff {p : DatePattern} {v : DateTime} {names : CalendarNames}
    {e : FormatError} :
    p.format v names = .error e ↔ ∃ reason, p.fault? = some reason ∧ e = .datePattern p.source reason := by
  unfold format
  cases p.fault? with
  | none => simp
  | some reason => simp [eq_comm]

end DatePattern

end MessageCatalog
