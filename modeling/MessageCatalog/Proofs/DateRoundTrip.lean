import MessageCatalog.Proofs.DateFields
import MessageCatalog.Proofs.NamedStyles

/-!
# Written dates read back

A date and time that is written in a pattern is read back as what the pattern carries of it. Which
fields that are, and that no number in the pattern runs into another one, is seen from the tokens;
the rest holds of every date and time.

## Main statements

* `readTokens_written` : reading along the tokens notes the fields that were written
* `exists_read_of_format` : what a pattern carries of a date and time is read back
* `resolve_of` : of a whole date what the fields carry is read
* `exists_read_date`, `exists_read_time`, `read_of_named_style` : the named styles of all locales
-/

namespace MessageCatalog

open Text

/-! ## Section 1: What a written date says -/

/-- What is read of a text that carries some fields of a date and time. -/
def DateReading.of (v : DateTime) (fields : List DateField) : DateReading where
  year := if .year ∈ fields then some v.date.year else none
  month := if .month ∈ fields then some v.date.month else none
  day := if .day ∈ fields then some v.date.day else none
  hour := if .hour ∈ fields ∨ .hourFromOne ∈ fields then some v.time.hour else none
  halfHour :=
    if .halfHour ∈ fields ∨ .halfHourFromZero ∈ fields then some (v.time.hour % 12) else none
  afternoon := if .dayPeriod ∈ fields then some (decide (12 ≤ v.time.hour)) else none
  minute := if .minute ∈ fields then some v.time.minute else none
  second := if .second ∈ fields then some v.time.second else none
  millisecond := if .millisecond ∈ fields then some v.time.milliseconds else none

theorem DateReading.of_reverse (v : DateTime) (fields : List DateField) :
    DateReading.of v fields.reverse = .of v fields := by
  simp [DateReading.of]

namespace DatePattern

/-- Whether a year can be told from its last two digits. -/
def InWindow (currentYear year : Int) : Prop := currentYear - 80 ≤ year ∧ year ≤ currentYear + 19

theorem expandYear_of_inWindow {currentYear year : Int} (h : InWindow currentYear year) :
    expandYear currentYear (year % 100).toNat = year := by
  obtain ⟨hfrom, hto⟩ := h
  have hrange := expandYear_range currentYear (year % 100).toNat
  omega

/-- **One field**: noting a field of a date and time that was written adds it to those before. -/
theorem noteField_of {currentYear : Int} {v : DateTime} (hyear : 0 ≤ v.date.year) {count : Nat}
    {field : DateField}
    (hwindow : field = .year → count = 2 → InWindow currentYear v.date.year)
    (seen : List DateField) :
    noteField currentYear v (.of v seen) count field = .of v (field :: seen) := by
  have hmonth := v.date.month_range
  have hmax : v.date.year ≤ 262142 := v.date.year_range.2
  have hhour := v.time.hour_range
  cases field with
  | year =>
    by_cases hcount : count = 2
    · have hexpand := expandYear_of_inWindow (hwindow rfl hcount)
      simp [noteField, isNumeric, noteNumber, fieldNumber, hcount, hexpand, DateReading.of]
    · have hread : v.date.year.toNat ≤ maxReadYear := by
        unfold maxReadYear
        omega
      have hcast : (v.date.year.toNat : Int) = v.date.year := Int.toNat_of_nonneg hyear
      simp only [noteField, isNumeric, noteNumber, fieldNumber, hcount, if_false, hread, if_true,
        hcast]
      simp [DateReading.of]
  | month =>
    have hplace : v.date.month - 1 + 1 = v.date.month := by omega
    unfold noteField
    split <;> simp [noteNumber, noteName, fieldNumber, fieldPlace, hplace, DateReading.of]
  | dayPeriod =>
    have hplace : ((if 12 ≤ v.time.hour then 1 else 0) == 1) = decide (12 ≤ v.time.hour) := by
      by_cases h : 12 ≤ v.time.hour <;> simp [h]
    simp [noteField, isNumeric, noteName, fieldPlace, hplace, DateReading.of]
  | hourFromOne =>
    have hclock : (if v.time.hour = 0 then 24 else v.time.hour) % 24 = v.time.hour := by
      split <;> omega
    simp [noteField, isNumeric, noteNumber, fieldNumber, hclock, DateReading.of]
  | halfHour =>
    have hclock : (if v.time.hour % 12 = 0 then 12 else v.time.hour % 12) % 12 =
        v.time.hour % 12 := by
      split <;> omega
    simp [noteField, isNumeric, noteNumber, fieldNumber, hclock, DateReading.of]
  | _ => simp [noteField, isNumeric, noteNumber, noteName, fieldNumber, DateReading.of]

/-! ## Section 2: Reading along the tokens -/

/-- The text of a date and time along some tokens. -/
def written (v : DateTime) (names : CalendarNames) (tokens : List DateToken) : Text :=
  tokens.flatMap (formatToken v names)

/-- The fields that tokens ask for. -/
def fields (tokens : List DateToken) : List DateField :=
  tokens.filterMap fun
    | .field field _ _ => some field
    | _ => none

/-- A year of two digits is asked for. -/
def hasShortYear (tokens : List DateToken) : Bool :=
  tokens.any fun
    | .field .year 2 _ => true
    | _ => false

/-- Tokens that can be read back one by one: no number runs into the text behind it. -/
def Separated (v : DateTime) (names : CalendarNames) : List DateToken → Prop
  | [] => True
  | .literal _ :: tokens => Separated v names tokens
  | .field field count abuts :: tokens =>
    (isNumeric count field = true → opensWithDigit (written v names tokens) = false ∧
      (abuts = true → (formatField v names count field).length ≤ count)) ∧
      Separated v names tokens
  | .unknown _ :: _ => False

/-- What is noted of the fields of some tokens in turn. -/
def noteTokens (currentYear : Int) (v : DateTime) : List DateToken → DateReading → DateReading
  | [], r => r
  | .field field count _ :: tokens, r =>
    noteTokens currentYear v tokens (noteField currentYear v r count field)
  | .literal _ :: tokens, r | .unknown _ :: tokens, r => noteTokens currentYear v tokens r

section

variable {currentYear : Int} {v : DateTime} {names : CalendarNames}

/-- **Reading along the tokens** notes the fields that were written, and nothing is left. -/
theorem readTokens_written (hyear : 0 ≤ v.date.year) (hnames : names.AreRecognizable)
    {tokens : List DateToken} (h : Separated v names tokens) (source text : Text)
    (r : DateReading) :
    readTokens currentYear names source text tokens (r, written v names tokens) =
      .ok (noteTokens currentYear v tokens r, []) := by
  induction tokens generalizing r with
  | nil => rfl
  | cons token tokens ih =>
    cases token with
    | literal c =>
      have htoken : readToken currentYear names source text (.literal c)
          (r, written v names (.literal c :: tokens)) = .ok (r, written v names tokens) := by
        simp [written, formatToken, readToken, takeChar, Except.map]
      rw [readTokens, htoken]
      exact ih h r
    | field field count abuts =>
      obtain ⟨hnumber, htokens⟩ := h
      have hwritten : written v names (.field field count abuts :: tokens) =
          formatField v names count field ++ written v names tokens := List.flatMap_cons
      rw [readTokens, hwritten, readToken_field hyear hnames currentYear source text hnumber]
      exact ih htokens _
    | unknown letter => exact h.elim

/-- The fields of a date and time that was written are noted as they are. -/
theorem noteTokens_of (hyear : 0 ≤ v.date.year) {tokens : List DateToken}
    (hwindow : hasShortYear tokens = true → InWindow currentYear v.date.year)
    (seen : List DateField) :
    noteTokens currentYear v tokens (.of v seen) = .of v ((fields tokens).reverse ++ seen) := by
  induction tokens generalizing seen with
  | nil => rfl
  | cons token tokens ih =>
    have hrest : hasShortYear tokens = true → InWindow currentYear v.date.year := fun hshort =>
      hwindow (by simp [hasShortYear] at hshort ⊢; exact .inr hshort)
    cases token with
    | literal c => exact ih hrest seen
    | unknown letter => exact ih hrest seen
    | field field count abuts =>
      have hfields : fields (.field field count abuts :: tokens) = field :: fields tokens := rfl
      rw [noteTokens, noteField_of hyear, hfields, List.reverse_cons, List.append_assoc]
      · exact ih hrest (field :: seen)
      · rintro rfl rfl
        exact hwindow rfl

theorem unknown?_of_separated {p : DatePattern} (h : Separated v names p.tokens) :
    p.unknown? = none := by
  unfold unknown? unknownIn?
  generalize p.tokens = tokens at h
  induction tokens with
  | nil => rfl
  | cons token tokens ih =>
    cases token with
    | literal c => exact ih h
    | field field count abuts => exact ih h.2
    | unknown letter => exact h.elim

/-- **What a pattern carries of a date and time is read back.** -/
theorem exists_read_of_format {p : DatePattern} (hyear : 0 ≤ v.date.year)
    (hnames : names.AreRecognizable) (hquote : p.quoteOpen = false)
    (h : Separated v names p.tokens)
    (hwindow : hasShortYear p.tokens = true → InWindow currentYear v.date.year) {d : DateTime}
    (hresolve : (DateReading.of v (fields p.tokens)).resolve = some d) :
    ∃ text, p.format v names = .ok text ∧ p.read currentYear names text = .ok d := by
  refine ⟨written v names p.tokens, ?_, ?_⟩
  · simp only [format, fault?, unknown?_of_separated h, hquote, Bool.false_eq_true, if_false]
    rfl
  · have hstart : DateReading.start = .of v [] := by simp [DateReading.of, DateReading.start]
    unfold DatePattern.read
    rw [hstart, readTokens_written hyear hnames h, noteTokens_of hyear hwindow, List.append_nil,
      DateReading.of_reverse]
    simp [bind, Except.bind, hquote, hresolve]

end

/-! ## Section 3: What can be seen from the tokens -/

/-- Whether what tokens are written as may begin with a digit. -/
def opensWithNumber : List DateToken → Bool
  | [] => false
  | .literal c :: _ => c.isDigit
  | .field field count _ :: _ => isNumeric count field
  | .unknown _ :: _ => true

/-- Tokens of which no number is followed by another one or by a letter. -/
def isSeparated : List DateToken → Bool
  | [] => true
  | .literal _ :: tokens => isSeparated tokens
  | .field field count abuts :: tokens =>
    (!isNumeric count field || !abuts && !opensWithNumber tokens) && isSeparated tokens
  | .unknown _ :: _ => false

theorem opensWithDigit_written (v : DateTime) {names : CalendarNames}
    (hnames : names.AreRecognizable) {tokens : List DateToken}
    (h : opensWithNumber tokens = false) : opensWithDigit (written v names tokens) = false := by
  cases tokens with
  | nil => rfl
  | cons token tokens =>
    have hwritten : written v names (token :: tokens) =
        formatToken v names token ++ written v names tokens := List.flatMap_cons
    rw [hwritten]
    cases token with
    | literal c => exact h
    | field field count abuts =>
      -- a field that is no number is a name
      obtain ⟨list, hlist⟩ : ∃ list, nameList? names count field = some list := by
        rw [← Option.ne_none_iff_exists']
        intro hnone
        rw [nameList?_eq_none_iff] at hnone
        exact absurd hnone (by simpa [opensWithNumber] using h)
      obtain ⟨⟨_, hnamed⟩, hplace⟩ := getElem?_fieldPlace v hnames hlist
      obtain ⟨hne, hopens⟩ := hnamed.opens _ (List.mem_of_getElem? hplace)
      simp only [formatToken]
      rw [formatField_of_nameList? v hlist, opensWithDigit_append hne, hopens]
    | unknown letter => simp [opensWithNumber] at h

/-- Such tokens can be read back whatever date and time is written. -/
theorem separated_of_isSeparated (v : DateTime) {names : CalendarNames}
    (hnames : names.AreRecognizable) {tokens : List DateToken} (h : isSeparated tokens = true) :
    Separated v names tokens := by
  induction tokens with
  | nil => trivial
  | cons token tokens ih =>
    cases token with
    | literal c => exact ih h
    | field field count abuts =>
      simp only [isSeparated, Bool.and_eq_true, Bool.or_eq_true, Bool.not_eq_true'] at h
      obtain ⟨hnumber, htokens⟩ := h
      refine ⟨fun hnumeric => ?_, ih htokens⟩
      obtain ⟨habuts, hopens⟩ := hnumber.resolve_left (by simp [hnumeric])
      exact ⟨opensWithDigit_written v hnames hopens, by simp [habuts]⟩
    | unknown letter => simp [isSeparated] at h

/-- The fields of a whole date: year, month and day, besides them a weekday at most. -/
def areOfDate (fields : List DateField) : Bool :=
  [.year, .month, .day].all fields.contains &&
    fields.all [DateField.year, .month, .day, .weekday].contains

/-- The fields of a clock with seconds or without: the hour of the day, or that of the half day
together with the half. -/
def areOfClock (seconds : Bool) (fields : List DateField) : Bool :=
  (fields.contains .hour && !fields.contains .halfHour ||
    fields.contains .halfHour && fields.contains .dayPeriod) &&
  fields.contains .minute && fields.contains .second == seconds &&
    fields.all [DateField.hour, .halfHour, .dayPeriod, .minute, .second].contains

theorem year_mem_fields {tokens : List DateToken} (h : hasShortYear tokens = true) :
    DateField.year ∈ fields tokens := by
  obtain ⟨token, htoken, hshort⟩ := List.any_eq_true.mp h
  cases token with
  | field field count abuts =>
    have hyear : field = .year := by
      by_contra hne
      cases field <;> simp_all
    exact List.mem_filterMap.mpr ⟨_, htoken, congrArg some hyear⟩
  | literal c => simp at hshort
  | unknown letter => simp at hshort

theorem year_not_mem_of_areOfClock {seconds : Bool} {fields : List DateField}
    (h : areOfClock seconds fields = true) : DateField.year ∉ fields := by
  intro hyear
  have hall := List.all_eq_true.mp (Bool.and_eq_true_iff.mp h).2 _ hyear
  exact absurd hall (by decide)

end DatePattern

/-! ## Section 4: What is carried -/

namespace DateTime

/-- What a pattern with some fields carries of a date and time, its date among them: of the time the
parts that the fields ask for, and no others. -/
def carried (v : DateTime) (fields : List DateField) : DateTime where
  date := v.date
  time := {
    hour :=
      if [DateField.hour, .hourFromOne, .halfHour, .halfHourFromZero].any fields.contains then
        v.time.hour
      else 0
    minute := if .minute ∈ fields then v.time.minute else 0
    second := if .second ∈ fields then v.time.second else 0
    nanosecond := if .millisecond ∈ fields then v.time.milliseconds * 1000000 else 0
    hour_range := by
      have hrange := v.time.hour_range
      split <;> omega
    minute_range := by
      have hrange := v.time.minute_range
      split <;> omega
    second_range := by
      have hrange := v.time.second_range
      split <;> omega
    nanosecond_range := by
      unfold TimeOfDay.milliseconds
      split <;> omega }

end DateTime

namespace DateReading

/-- The hour of the day is read if any of its fields is there, those of the half day with the
half. -/
theorem hourOfDay_of (v : DateTime) {fields : List DateField}
    (hperiod : .halfHour ∈ fields ∨ .halfHourFromZero ∈ fields → .dayPeriod ∈ fields) :
    (DateReading.of v fields).hourOfDay = (v.carried fields).time.hour := by
  have hrange := v.time.hour_range
  -- an hour of the half day goes before one of the whole day
  by_cases hhalf : .halfHour ∈ fields ∨ .halfHourFromZero ∈ fields
  · have hcarried : (v.carried fields).time.hour = v.time.hour :=
      if_pos (by rcases hhalf with h | h <;> simp [h])
    rw [hcarried]
    simp only [hourOfDay, DateReading.of, if_pos hhalf, if_pos (hperiod hhalf), Option.some.injEq,
      decide_eq_true_eq]
    split <;> omega
  · obtain ⟨h, hzero⟩ := not_or.mp hhalf
    simp only [hourOfDay, DateReading.of, if_neg hhalf, DateTime.carried]
    by_cases hhour : .hour ∈ fields <;> by_cases hone : .hourFromOne ∈ fields <;>
      simp [h, hzero, hhour, hone]

/-- **What is read of a whole date is what the fields carry**, if there is a half of the day where
its hour is given. -/
theorem resolve_of (v : DateTime) {fields : List DateField} (hyear : .year ∈ fields)
    (hmonth : .month ∈ fields) (hday : .day ∈ fields)
    (hperiod : .halfHour ∈ fields ∨ .halfHourFromZero ∈ fields → .dayPeriod ∈ fields) :
    (DateReading.of v fields).resolve = some (v.carried fields) := by
  have hdate : Date.ofParts? v.date.year v.date.month v.date.day = some v.date := by
    rw [Date.ofParts?, dif_pos ⟨v.date.year_range, v.date.day_range⟩]
  have hnanosecond : (v.carried fields).time.nanosecond < 1000000000 := by
    show (if DateField.millisecond ∈ fields then v.time.milliseconds * 1000000 else 0) < 1000000000
    unfold TimeOfDay.milliseconds
    split <;> omega
  have htime : TimeOfDay.ofParts? (v.carried fields).time.hour (v.carried fields).time.minute
      (v.carried fields).time.second (v.carried fields).time.nanosecond =
        some (v.carried fields).time := by
    rw [TimeOfDay.ofParts?, dif_pos ⟨(v.carried fields).time.hour_range,
      (v.carried fields).time.minute_range, (v.carried fields).time.second_range,
      (v.carried fields).time.nanosecond_range, .inl hnanosecond⟩]
  have hminute : (DateReading.of v fields).minute.getD 0 = (v.carried fields).time.minute := by
    by_cases h : .minute ∈ fields <;> simp [DateReading.of, DateTime.carried, h]
  have hsecond : (DateReading.of v fields).second.getD 0 = (v.carried fields).time.second := by
    by_cases h : .second ∈ fields <;> simp [DateReading.of, DateTime.carried, h]
  have hmillisecond : (DateReading.of v fields).millisecond.getD 0 * 1000000 =
      (v.carried fields).time.nanosecond := by
    by_cases h : .millisecond ∈ fields <;> simp [DateReading.of, DateTime.carried, h]
  unfold resolve
  rw [hourOfDay_of v hperiod, hminute, hsecond, hmillisecond]
  simp only [DateReading.of, hyear, hmonth, hday, if_true, Option.getD_some]
  simp only [DateTime.ofParts?, hdate, htime]
  rfl

/-- **A whole date is read** as that date at midnight. -/
theorem resolve_of_areOfDate (v : DateTime) {fields : List DateField}
    (h : DatePattern.areOfDate fields = true) :
    (DateReading.of v fields).resolve = some (.ofDate v.date) := by
  simp only [DatePattern.areOfDate, List.all_cons, List.all_nil, Bool.and_true, Bool.and_eq_true,
    List.contains_iff_mem, List.all_eq_true] at h
  obtain ⟨⟨hyear, hmonth, hday⟩, hall⟩ := h
  have hnone : ∀ field, field ∉ [DateField.year, .month, .day, .weekday] → field ∉ fields :=
    fun field hfield hmem => hfield (hall field hmem)
  rw [resolve_of v hyear hmonth hday]
  · simp [DateTime.carried, DateTime.ofDate, TimeOfDay.midnight, hnone]
  · rintro (hhalf | hhalf)
    · exact absurd hhalf (hnone .halfHour (by decide))
    · exact absurd hhalf (hnone .halfHourFromZero (by decide))

/-- **A clock is read** as its time on the first of January 1970. -/
theorem resolve_of_areOfClock (v : DateTime) {seconds : Bool} {fields : List DateField}
    (h : DatePattern.areOfClock seconds fields = true) :
    (DateReading.of v fields).resolve =
      DateTime.ofParts? 1970 1 1 v.time.hour v.time.minute (if seconds then v.time.second else 0)
        0 := by
  simp only [DatePattern.areOfClock, Bool.and_eq_true, Bool.or_eq_true, Bool.not_eq_true',
    List.contains_iff_mem, List.all_eq_true, beq_iff_eq] at h
  obtain ⟨⟨⟨hhours, hminute⟩, hsecond⟩, hall⟩ := h
  have hnone : ∀ field, field ∉ [DateField.hour, .halfHour, .dayPeriod, .minute, .second] →
      field ∉ fields := fun field hfield hmem => hfield (hall field hmem)
  have hzero : DateField.halfHourFromZero ∉ fields := hnone .halfHourFromZero (by decide)
  have hhour : (DateReading.of v fields).hourOfDay = v.time.hour := by
    rw [hourOfDay_of v]
    · exact if_pos (by rcases hhours with h | h <;> simp [h])
    · rcases hhours with ⟨-, hhalf⟩ | ⟨-, hperiod⟩
      · exact fun h => absurd h (by simpa [hzero] using hhalf)
      · exact fun _ => hperiod
  have hseconds : (DateReading.of v fields).second.getD 0 =
      if seconds then v.time.second else 0 := by
    cases seconds with
    | true =>
      have hmem : DateField.second ∈ fields := by simpa using hsecond
      simp [DateReading.of, hmem]
    | false =>
      have hmem : DateField.second ∉ fields := by simpa using hsecond
      simp [DateReading.of, hmem]
  unfold resolve
  rw [hhour, hseconds]
  simp only [DateReading.of, hminute, hnone .year (by decide), hnone .month (by decide),
    hnone .day (by decide), hnone .millisecond (by decide), if_true, if_false, Option.getD_some,
    Option.getD_none, Nat.zero_mul]

end DateReading

/-! ## Section 5: The patterns of the locales -/

namespace DateStyle

/-- A pattern that writes a whole date so that it can be read back. -/
def writesDate (p : DatePattern) : Bool :=
  !p.quoteOpen && DatePattern.isSeparated p.tokens &&
    DatePattern.areOfDate (DatePattern.fields p.tokens)

/-- A pattern that writes a clock, with seconds or without, so that it can be read back. -/
def writesClock (seconds : Bool) (p : DatePattern) : Bool :=
  !p.quoteOpen && DatePattern.isSeparated p.tokens &&
    DatePattern.areOfClock seconds (DatePattern.fields p.tokens)

theorem writesDate_datePatterns (tag : LocaleTag) :
    OfDatePatterns writesDate (datePatterns tag) := by
  unfold datePatterns
  repeat
    refine ofDatePatterns_ite (ofDatePatterns_ofList ?_ ?_ ?_ ?_) ?_
    iterate 4
      · decide +kernel
  exact ofDatePatterns_ofList (by decide +kernel) (by decide +kernel) (by decide +kernel)
    (by decide +kernel)

theorem writesClock_timePatterns (tag : LocaleTag) :
    OfTimePatterns writesClock (timePatterns tag) := by
  unfold timePatterns
  split_ifs <;> exact ofTimePatterns_ofList (by decide +kernel) (by decide +kernel)

end DateStyle

namespace DateTime

open DatePattern

/-- A time of day without a part of a second is one of every day. -/
theorem exists_ofParts?_of_time (t : TimeOfDay) (second : Nat) (h : second < 60) :
    ∃ d, DateTime.ofParts? 1970 1 1 t.hour t.minute second 0 = some d := by
  have htime : ∃ time, TimeOfDay.ofParts? t.hour t.minute second 0 = some time := by
    rw [TimeOfDay.ofParts?, dif_pos ⟨t.hour_range, t.minute_range, h, by decide, .inl (by decide)⟩]
    exact ⟨_, rfl⟩
  obtain ⟨time, htime⟩ := htime
  exact ⟨⟨⟨1970, 1, 1, by decide, by decide⟩, time⟩, by simp only [DateTime.ofParts?, htime]; rfl⟩

section

variable {currentYear : Int} {v : DateTime} {style : DateStyle} (tag : LocaleTag)

/-- **A date is read back** in every named style, where its year is not cut to two digits or can be
told from them. -/
theorem exists_read_date (hstyle : ∀ source, style ≠ .pattern source) (hyear : 0 ≤ v.date.year)
    (hwindow : hasShortYear (style.toPattern .date tag).tokens = true →
      InWindow currentYear v.date.year) :
    ∃ text, v.format .date style tag = .ok text ∧
      DateTime.read currentYear .date style tag text = .ok (.ofDate v.date) := by
  have hnames := CalendarNames.areRecognizable_ofLocale tag
  have hcheck := DateStyle.toPattern_date (DateStyle.writesDate_datePatterns tag) hstyle
  simp only [DateStyle.writesDate, Bool.and_eq_true, Bool.not_eq_true'] at hcheck
  obtain ⟨⟨hquote, hseparated⟩, hfields⟩ := hcheck
  exact exists_read_of_format hyear hnames hquote (separated_of_isSeparated v hnames hseparated)
    hwindow (DateReading.resolve_of_areOfDate v hfields)

/-- **A time is read back** in every named style. -/
theorem exists_read_time (hstyle : ∀ source, style ≠ .pattern source) (hyear : 0 ≤ v.date.year) :
    ∃ text d, v.format .time style tag = .ok text ∧
      DateTime.ofParts? 1970 1 1 v.time.hour v.time.minute
        (if style = .short then 0 else v.time.second) 0 = some d ∧
      DateTime.read currentYear .time style tag text = .ok d := by
  have hnames := CalendarNames.areRecognizable_ofLocale tag
  have hcheck := DateStyle.toPattern_time (DateStyle.writesClock_timePatterns tag) hstyle
  simp only [DateStyle.writesClock, Bool.and_eq_true, Bool.not_eq_true'] at hcheck
  obtain ⟨⟨hquote, hseparated⟩, hfields⟩ := hcheck
  have hshort : hasShortYear (style.toPattern .time tag).tokens = true →
      InWindow currentYear v.date.year := fun hshort =>
    absurd (year_mem_fields hshort) (year_not_mem_of_areOfClock hfields)
  have hsecond : (if decide (style ≠ .short) then v.time.second else 0) =
      if style = .short then 0 else v.time.second := by
    by_cases h : style = .short <;> simp [h]
  have hresolve := DateReading.resolve_of_areOfClock v hfields
  rw [hsecond] at hresolve
  obtain ⟨d, hd⟩ := exists_ofParts?_of_time v.time (if style = .short then 0 else v.time.second)
    (by split <;> simp [v.time.second_range])
  obtain ⟨text, hformat, hread⟩ := exists_read_of_format hyear hnames hquote
    (separated_of_isSeparated v hnames hseparated) hshort (hresolve.trans hd)
  exact ⟨text, d, hformat, hd, hread⟩

end

/-- **Named styles read back what they write.** A date with a year from 0 on is read as that date at
midnight; where the style cuts the year to two digits, it has to lie between 80 years before the
current year and 19 years after it. A time is read as one of the first of January 1970, without its
seconds in the short style; a leap second is read as second 59. -/
theorem read_of_named_style (currentYear : Int) (tag : LocaleTag) {style : DateStyle}
    (hstyle : ∀ source, style ≠ .pattern source) (v : DateTime) (hyear : 0 ≤ v.date.year) :
    ((hasShortYear (style.toPattern .date tag).tokens = true →
        currentYear - 80 ≤ v.date.year ∧ v.date.year ≤ currentYear + 19) →
      ∃ text, v.format .date style tag = .ok text ∧
        DateTime.read currentYear .date style tag text = .ok (.ofDate v.date)) ∧
      ∃ text d, v.format .time style tag = .ok text ∧
        DateTime.ofParts? 1970 1 1 v.time.hour v.time.minute
          (if style = .short then 0 else v.time.second) 0 = some d ∧
        DateTime.read currentYear .time style tag text = .ok d :=
  ⟨exists_read_date tag hstyle hyear, exists_read_time tag hstyle hyear⟩

/-- The earliest year that two digits stand for in 2026, and a leap second after midnight. -/
theorem read_of_named_style_edge :
    let en : LocaleTag := ⟨"en".toList, none, none, []⟩
    let v : DateTime := ⟨⟨1946, 2, 28, by decide, by decide⟩,
      ⟨0, 30, 59, 1500000000, by decide, by decide, by decide, by decide⟩⟩
    v.format .date .short en = .ok "2/28/46".toList ∧
      DateTime.read 2026 .date .short en "2/28/46".toList = .ok (.ofDate v.date) ∧
      v.format .time .full en = .ok "12:30:59 AM".toList ∧
      ∃ d, DateTime.ofParts? 1970 1 1 0 30 59 0 = some d ∧
        DateTime.read 2026 .time .full en "12:30:59 AM".toList = .ok d := by
  intro en v
  have hshort : ∀ source, DateStyle.short ≠ .pattern source := by simp
  have hfull : ∀ source, DateStyle.full ≠ .pattern source := by simp
  have hdate : v.format .date .short en = .ok "2/28/46".toList := by decide +kernel
  have htime : v.format .time .full en = .ok "12:30:59 AM".toList := by decide +kernel
  obtain ⟨text, hformat, hread⟩ :=
    (read_of_named_style 2026 en hshort v (by decide)).1 fun _ => by decide
  obtain ⟨text', d, hformat', hd, hread'⟩ :=
    (read_of_named_style 2026 en hfull v (by decide)).2
  obtain rfl := Except.ok.inj (hformat.symm.trans hdate)
  obtain rfl := Except.ok.inj (hformat'.symm.trans htime)
  exact ⟨hdate, hread, htime, d, hd, hread'⟩

end DateTime

end MessageCatalog
