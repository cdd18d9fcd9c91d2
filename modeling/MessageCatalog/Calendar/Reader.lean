import MessageCatalog.Calendar.Pattern

/-!
# Reading dates

A text is read along the tokens of a pattern. A numeric field takes as many digits as it has
letters when another letter follows, and all digits there are otherwise; a name field takes the
longest name that fits. What the fields say is gathered first and made into a date at the end;
fields the pattern does not carry are those of 1970-01-01, 00:00:00. Two-digit years lie within 80
years before and 20 years after the current year.

## Main statements

* `expandYear_range` : a two-digit year lies in the window around the current year
* `read_of_fault` : a pattern at fault reads no text
-/

namespace MessageCatalog

open Text

/-! ## Section 1: What the fields say -/

/-- What has been read of a date and time. `halfHour` counts from 0 to 11 and `afternoon` tells the
half of the day. -/
structure DateReading where
  year : Option Int
  month : Option Nat
  day : Option Nat
  hour : Option Nat
  halfHour : Option Nat
  afternoon : Option Bool
  minute : Option Nat
  second : Option Nat
  millisecond : Option Nat
  deriving DecidableEq, Repr

namespace DateReading

/-- Nothing read yet. -/
def start : DateReading := ⟨none, none, none, none, none, none, none, none, none⟩

/-- The hour of the day. An hour of the half day, if there is one, decides; without a half of the
day it is in the morning. -/
def hourOfDay (r : DateReading) : Nat :=
  match r.halfHour with
  -- noon and midnight have been read as hour 0
  | some h => h + if r.afternoon = some true then 12 else 0
  | none => r.hour.getD 0

/-- The date and time that was read, if there is such a one. -/
def resolve (r : DateReading) : Option DateTime :=
  DateTime.ofParts? (r.year.getD 1970) (r.month.getD 1) (r.day.getD 1) r.hourOfDay
    (r.minute.getD 0) (r.second.getD 0) (r.millisecond.getD 0 * 1000000)

end DateReading

/-- The year that two digits stand for: the one from 80 years before the current year on, for a
hundred years. -/
def expandYear (currentYear : Int) (digits : Nat) : Int :=
  let start := currentYear - 80
  -- in the century of the first year there is, or in the next one
  let year := start - start % 100 + (digits % 100 : Nat)
  if year < start then year + 100 else year

/-- A two-digit year lies in the window around the current year and ends with its two digits. -/
theorem expandYear_range (currentYear : Int) (digits : Nat) :
    currentYear - 80 ≤ expandYear currentYear digits ∧
      expandYear currentYear digits < currentYear + 20 ∧
      expandYear currentYear digits % 100 = (digits % 100 : Nat) := by
  unfold expandYear
  simp only []
  split <;> omega

namespace DatePattern

/-! ## Section 2: Taking pieces of the text -/

/-- Take one literal character. -/
def takeChar (text : Text) (c : Char) : Text → Except FormatError Text
  | d :: rest =>
    if d = c then .ok rest else .error (.unparseable text s!"expected '{c}'")
  | [] => .error (.unparseable text s!"expected '{c}'")

/-- The highest number that a field may hold. -/
def maxFieldValue : Nat := 2 ^ 32 - 1

/-- Take a number of at most `width` digits, or of all digits there are. -/
def takeNumber (text : Text) (width : Option Nat) (rest : Text) : Except FormatError (Nat × Text) :=
  let all : Text := rest.takeWhile Char.isDigit
  let digits : Text := match width with
    | some width => all.take width
    | none => all
  if digits = [] then .error (.unparseable text "expected digits")
  else if value digits ≤ maxFieldValue then .ok (value digits, rest.drop digits.length)
  else .error (.unparseable text s!"'{digits.str}' is out of range")

/-- The place of the longest name that a text starts with, and that name; of two equal ones the
later. -/
def longestName? (rest : Text) (names : List Text) : Option (Nat × Text) :=
  names.zipIdx.foldl
    (fun best (name, i) =>
      if startsWith name rest then
        match best with
        | some (_, longest) => if longest.length ≤ name.length then some (i, name) else best
        | none => some (i, name)
      else best)
    none

/-- Take a name; gives its place in the list. -/
def takeName (text : Text) (names : List Text) (rest : Text) : Except FormatError (Nat × Text) :=
  match longestName? rest names with
  | some (i, name) => .ok (i, rest.drop name.length)
  | none => .error (.unparseable text "expected a month, weekday or day period name")

/-- Whether a field of so many letters holds a name rather than a number. -/
def nameList? (names : CalendarNames) (count : Nat) : DateField → Option (List Text)
  | .month =>
    if 4 ≤ count then some names.months else if count = 3 then some names.monthsShort else none
  | .weekday => some (if 4 ≤ count then names.weekdays else names.weekdaysShort)
  | .dayPeriod => some names.dayPeriods
  | _ => none

/-- Note the name at a place of the list of a field. Weekdays are not noted. -/
def noteName (r : DateReading) (i : Nat) : DateField → DateReading
  | .month => { r with month := some (i + 1) }
  | .dayPeriod => { r with afternoon := some (i == 1) }
  | _ => r

/-- The highest year that a number can say; a higher one says nothing. -/
def maxReadYear : Nat := 2 ^ 31 - 1

/-- Note the number of a field. Hours wrap around their clock. -/
def noteNumber (currentYear : Int) (r : DateReading) (count n : Nat) : DateField → DateReading
  | .year =>
    if count = 2 then { r with year := some (expandYear currentYear n) }
    else { r with year := if n ≤ maxReadYear then some (n : Int) else none }
  | .month => { r with month := some n }
  | .day => { r with day := some n }
  | .hour => { r with hour := some n }
  | .hourFromOne => { r with hour := some (n % 24) }
  | .halfHour | .halfHourFromZero => { r with halfHour := some (n % 12) }
  | .minute => { r with minute := some n }
  | .second => { r with second := some n }
  | .millisecond => { r with millisecond := some n }
  | .weekday | .dayPeriod => r

/-! ## Section 3: Reading along a pattern -/

/-- Read one token. -/
def readToken (currentYear : Int) (names : CalendarNames) (source text : Text) :
    DateToken → DateReading × Text → Except FormatError (DateReading × Text)
  | .literal c, (r, rest) => (takeChar text c rest).map (r, ·)
  | .field field count abuts, (r, rest) =>
    match nameList? names count field with
    | some list => (takeName text list rest).map fun (i, rest) => (noteName r i field, rest)
    | none =>
      (takeNumber text (if abuts then some count else none) rest).map fun (n, rest) =>
        (noteNumber currentYear r count n field, rest)
  | .unknown letter, _ => .error (.datePattern source (unknownReason letter))

/-- Read tokens in turn. -/
def readTokens (currentYear : Int) (names : CalendarNames) (source text : Text) :
    List DateToken → DateReading × Text → Except FormatError (DateReading × Text)
  | [], state => .ok state
  | token :: tokens, state =>
    match readToken currentYear names source text token state with
    | .ok state => readTokens currentYear names source text tokens state
    | .error e => .error e

/-- Read a text along a pattern. -/
def read (p : DatePattern) (currentYear : Int) (names : CalendarNames) (text : Text) :
    Except FormatError DateTime := do
  let (r, rest) ← readTokens currentYear names p.source text p.tokens (DateReading.start, text)
  if p.quoteOpen then .error (.datePattern p.source openQuoteReason)
  else if rest ≠ [] then
    .error (.unparseable text s!"unexpected trailing text '{rest.str}'")
  else
    match r.resolve with
    | some v => .ok v
    | none => .error (.unparseable text "no such date or time")

/-- An unknown letter is never passed. -/
theorem readTokens_unknown {currentYear : Int} {names : CalendarNames} {source text : Text}
    {tokens : List DateToken} {letter : Char} (h : DateToken.unknown letter ∈ tokens)
    (state : DateReading × Text) :
    ∃ e, readTokens currentYear names source text tokens state = .error e := by
  induction tokens generalizing state with
  | nil => simp at h
  | cons token tokens ih =>
    unfold readTokens
    rcases List.mem_cons.1 h with rfl | h
    · exact ⟨_, rfl⟩
    · cases hr : readToken currentYear names source text token state with
      | error e => exact ⟨e, rfl⟩
      | ok state => exact ih h state

/-- A pattern at fault reads no text. -/
theorem read_of_fault {p : DatePattern} {reason : String} (h : p.fault? = some reason)
    (currentYear : Int) (names : CalendarNames) (text : Text) :
    ∃ e, p.read currentYear names text = .error e := by
  unfold read
  cases hr : readTokens currentYear names p.source text p.tokens (DateReading.start, text) with
  | error e => exact ⟨e, rfl⟩
  | ok state =>
    cases hu : p.unknown? with
    | none =>
      have hq : p.quoteOpen = true := by
        by_cases hq : p.quoteOpen = true
        · exact hq
        · simp [fault?, hu, hq] at h
      exact ⟨.datePattern p.source openQuoteReason, by simp [bind, Except.bind, hq]⟩
    | some letter =>
      obtain ⟨token, ht, htoken⟩ := List.exists_of_findSome?_eq_some hu
      cases token with
      | unknown l =>
        obtain ⟨e, he⟩ : ∃ e, readTokens currentYear names p.source text p.tokens
            (DateReading.start, text) = .error e := readTokens_unknown ht _
        simp [he] at hr
      | literal c => simp at htoken
      | field f n b => simp at htoken

end DatePattern

end MessageCatalog
