import MessageCatalog.Text.Basic

/-!
# Dates and times

Dates of the proleptic Gregorian calendar and times of day, each with the proof that it exists. A
leap second is a nanosecond count of one second or more; of a clock's own second it is second 59.

## Main statements

* `weekday_lt` : a weekday is one of seven
-/

namespace MessageCatalog

/-! ## Section 1: Dates -/

/-- A year with a 29th of February. -/
def isLeapYear (year : Int) : Bool :=
  year % 4 == 0 && (year % 100 != 0 || year % 400 == 0)

/-- The number of days of a month. -/
def daysInMonth (year : Int) (month : Nat) : Nat :=
  match month with
  | 1 => 31
  | 2 => if isLeapYear year then 29 else 28
  | 3 => 31
  | 4 => 30
  | 5 => 31
  | 6 => 30
  | 7 => 31
  | 8 => 31
  | 9 => 30
  | 10 => 31
  | 11 => 30
  | 12 => 31
  | _ => 0

/-- The earliest year that dates reach. -/
def minYear : Int := -262143

/-- The latest year that dates reach. -/
def maxYear : Int := 262142

/-- A date: year, month from 1 and day from 1. -/
structure Date where
  year : Int
  month : Nat
  day : Nat
  year_range : minYear ≤ year ∧ year ≤ maxYear
  day_range : 1 ≤ day ∧ day ≤ daysInMonth year month
  deriving DecidableEq, Repr

namespace Date

/-- The date with some parts, if there is one. -/
def ofParts? (year : Int) (month day : Nat) : Option Date :=
  if h : (minYear ≤ year ∧ year ≤ maxYear) ∧ 1 ≤ day ∧ day ≤ daysInMonth year month then
    some ⟨year, month, day, h.1, h.2⟩
  else none

/-- The month of a date is one of twelve. -/
theorem month_range (d : Date) : 1 ≤ d.month ∧ d.month ≤ 12 := by
  obtain ⟨year, month, day, _, hd⟩ := d
  simp only
  match month, hd with
  | 0, hd => simp [daysInMonth] at hd; omega
  | 1, _ | 2, _ | 3, _ | 4, _ | 5, _ | 6, _ | 7, _ | 8, _ | 9, _ | 10, _ | 11, _ | 12, _ =>
    simp
  | n + 13, hd => simp [daysInMonth] at hd; omega

/-- The number of days from the first day of year 1 to the first day of a year. -/
def daysBefore (year : Int) : Int :=
  let y := year - 1
  365 * y + y / 4 - y / 100 + y / 400

/-- The place of a date in its year, counted from 0. -/
def dayOfYear (d : Date) : Nat :=
  ((List.range (d.month - 1)).map fun m => daysInMonth d.year (m + 1)).sum + (d.day - 1)

/-- The weekday of a date, counted from Monday as 0. Year 1 began on a Monday. -/
def weekday (d : Date) : Nat := ((daysBefore d.year + d.dayOfYear) % 7).toNat

/-- The day after a date, if dates reach that far. -/
def next? (d : Date) : Option Date :=
  (ofParts? d.year d.month (d.day + 1)).or <|
    (ofParts? d.year (d.month + 1) 1).or (ofParts? (d.year + 1) 1 1)

/-- The day before a date, if dates reach that far. -/
def previous? (d : Date) : Option Date :=
  (ofParts? d.year d.month (d.day - 1)).or <|
    (ofParts? d.year (d.month - 1) (daysInMonth d.year (d.month - 1))).or
      (ofParts? (d.year - 1) 12 31)

/-- A weekday is one of seven. -/
theorem weekday_lt (d : Date) : d.weekday < 7 := by
  unfold weekday
  omega

end Date

/-! ## Section 2: Times of day -/

/-- A time of day. Nanoseconds from one second on count in the leap second that follows. -/
structure TimeOfDay where
  hour : Nat
  minute : Nat
  second : Nat
  nanosecond : Nat
  hour_range : hour < 24
  minute_range : minute < 60
  second_range : second < 60
  nanosecond_range : nanosecond < 2000000000
  deriving DecidableEq, Repr

namespace TimeOfDay

/-- The time with some parts, if there is one. A leap second follows second 59 only. -/
def ofParts? (hour minute second nanosecond : Nat) : Option TimeOfDay :=
  if h : hour < 24 ∧ minute < 60 ∧ second < 60 ∧ nanosecond < 2000000000 ∧
      (nanosecond < 1000000000 ∨ second = 59) then
    some ⟨hour, minute, second, nanosecond, h.1, h.2.1, h.2.2.1, h.2.2.2.1⟩
  else none

/-- The beginning of the day. -/
def midnight : TimeOfDay :=
  ⟨0, 0, 0, 0, by decide, by decide, by decide, by decide⟩

/-- The seconds since midnight. -/
def secondOfDay (t : TimeOfDay) : Nat := t.hour * 3600 + t.minute * 60 + t.second

/-- The time so many seconds after midnight, with the nanoseconds of another time. -/
def atSecond (seconds : Nat) (t : TimeOfDay) : TimeOfDay :=
  ⟨seconds / 3600 % 24, seconds / 60 % 60, seconds % 60, t.nanosecond,
    Nat.mod_lt _ (by decide), Nat.mod_lt _ (by decide), Nat.mod_lt _ (by decide),
    t.nanosecond_range⟩

/-- The whole milliseconds of a time; a leap second stays at the last one. -/
def milliseconds (t : TimeOfDay) : Nat := min t.nanosecond 999999999 / 1000000

end TimeOfDay

/-- A date and a time of day. -/
structure DateTime where
  date : Date
  time : TimeOfDay
  deriving DecidableEq, Repr

namespace DateTime

/-- The beginning of a day. -/
def ofDate (d : Date) : DateTime := ⟨d, TimeOfDay.midnight⟩

/-- The date and time with some parts, if there is one. -/
def ofParts? (year : Int) (month day hour minute second nanosecond : Nat) : Option DateTime := do
  let date ← Date.ofParts? year month day
  let time ← TimeOfDay.ofParts? hour minute second nanosecond
  return ⟨date, time⟩

/-- The wall clock `offset` seconds, less than a day, east of the one that shows a date and time. -/
def inZone? (v : DateTime) (offset : Int) : Option DateTime :=
  let second := v.time.secondOfDay + offset
  -- the nanoseconds, and with them a leap second, do not move
  let time := v.time.atSecond (second % 86400).toNat
  if second < 0 then v.date.previous?.map (⟨·, time⟩)
  else if second < 86400 then some ⟨v.date, time⟩
  else v.date.next?.map (⟨·, time⟩)

end DateTime

end MessageCatalog
