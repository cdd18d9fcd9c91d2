import MessageCatalog.Proofs.DateRoundTrip

/-!
# Explicit patterns read back

A pattern that carries a whole date, the hour of the day in one way or another, and no two numbers
in a row, reads back what it writes as long as every number that abuts on a name fits into its
field. A longer number is cut at the width of its field, and the digits that are left stand where
the name should.

## Main statements

* `abutting_scan` : what abuts in a pattern abuts on a field
* `noteTokens_of_lastYear` : the last year of a pattern counts
* `readTokens_of_not_fits` : a number that does not fit breaks off the reading
* `read_of_carriesDate` : what a pattern reads of what it has written
-/

namespace MessageCatalog

open Text

namespace DatePattern

/-! ## Section 1: Digits that do not fit -/

/-- More digits do not make a number smaller. -/
theorem value_le_append (front rest : Text) : value front ≤ value (front ++ rest) := by
  have hvalue : value (front ++ rest) = 10 ^ rest.length * value front + value rest := by
    rw [value, Nat.ofDigitChars_append, Nat.ofDigitChars_eq_ofDigitChars_zero]
    rfl
  have hscale : value front ≤ 10 ^ rest.length * value front :=
    Nat.le_mul_of_pos_left _ (Nat.pow_pos (by decide))
  omega

/-- **A number that is longer than its field is cut**: the other digits are left. -/
theorem takeNumber_cut {digits : Text} (h : isNumeral digits = true)
    (hvalue : value digits ≤ maxFieldValue) {width : Nat} (hpos : 0 < width)
    (hlong : width < digits.length) (text rest : Text) :
    takeNumber text (some width) (digits ++ rest) =
      .ok (value (digits.take width), digits.drop width ++ rest) := by
  simp only [isNumeral, Bool.and_eq_true] at h
  have htaken : ((digits ++ rest).takeWhile Char.isDigit).take width = digits.take width := by
    rw [List.takeWhile_append_of_pos (List.all_eq_true.mp h.2), List.take_append_of_le_length hlong.le]
  -- the cut digits are read as a number, which is in range because the whole one is
  have hlength : (digits.take width).length = width := List.length_take_of_le hlong.le
  have hne : digits.take width ≠ [] := List.ne_nil_of_length_pos (by omega)
  have hsmall : value (digits.take width) ≤ maxFieldValue := by
    refine (value_le_append _ (digits.drop width)).trans ?_
    rwa [List.take_append_drop]
  unfold takeNumber
  simp only [htaken]
  rw [if_neg hne, if_pos hsmall, hlength, List.drop_append_of_le_length hlong.le]

/-- No name is found where a digit stands. -/
theorem takeName_of_digit {names : List Text}
    (hnames : ∀ name ∈ names, name ≠ [] ∧ opensWithDigit name = false) (text : Text) {rest : Text}
    (hrest : opensWithDigit rest = true) :
    takeName text names rest =
      .error (.unparseable text "expected a month, weekday or day period name") := by
  have hstarts : ∀ entry ∈ names.zipIdx, startsWith entry.1 rest = false := by
    intro entry hentry
    obtain ⟨hne, hopens⟩ := hnames entry.1 (List.fst_mem_of_mem_zipIdx hentry)
    rw [Bool.eq_false_iff]
    intro hstarts
    obtain ⟨tail, htail⟩ := Option.isSome_iff_exists.mp hstarts
    rw [stripPrefix?_eq_some_iff.mp htail, opensWithDigit_append hne, hopens] at hrest
    cases hrest
  rw [takeName, longestName?_eq, foldl_longer hstarts]

theorem recognizable_of_nameList? {names : CalendarNames} (hnames : names.AreRecognizable)
    {count : Nat} {field : DateField} {list : List Text}
    (h : nameList? names count field = some list) : ∃ size, Recognizable size list := by
  cases field <;> simp only [nameList?, reduceCtorEq, Option.some.injEq] at h
  case month =>
    split_ifs at h
    · exact Option.some.inj h ▸ ⟨12, hnames.months⟩
    · exact Option.some.inj h ▸ ⟨12, hnames.monthsShort⟩
  case weekday =>
    split_ifs at h
    · exact h ▸ ⟨7, hnames.weekdays⟩
    · exact h ▸ ⟨7, hnames.weekdaysShort⟩
  case dayPeriod => exact h ▸ ⟨2, hnames.dayPeriods⟩

/-! ## Section 2: What abuts -/

/-- Whether the first token is a run of letters. -/
def opensWithLetters : List DateToken → Bool
  | .field _ _ _ :: _ | .unknown _ :: _ => true
  | _ => false

/-- Fields have letters, and one that abuts does so on letters. -/
def Abutting : List DateToken → Prop
  | [] => True
  | .field _ count abuts :: tokens =>
    0 < count ∧ (abuts = true → opensWithLetters tokens = true) ∧ Abutting tokens
  | .literal _ :: tokens | .unknown _ :: tokens => Abutting tokens

/-- A letter outside of quotes begins a run of letters. -/
theorem opensWithLetters_scan {t : Text} (h : t.head?.any isLetter = true) :
    opensWithLetters (scan false t).1 = true := by
  cases t with
  | nil => simp at h
  | cons c cs =>
    have hletter : isLetter c = true := by simpa using h
    have hquote : c ≠ '\'' := by
      rintro rfl
      exact absurd hletter (by decide)
    rw [scan.eq_def]
    split
    · simp_all
    · simp_all
    · rename_i hcons
      obtain ⟨rfl, rfl⟩ := List.cons.inj hcons
      simp only [hquote, hletter]
      cases DateField.ofLetter? c <;> rfl

/-- **What abuts in a pattern abuts on a field.** -/
theorem abutting_scan (inQuote : Bool) (t : Text) : Abutting (scan inQuote t).1 := by
  fun_induction scan inQuote t with
  | case1 inQuote => trivial
  | case2 inQuote cs tokens quoteOpen hscan ih =>
    rw [hscan] at ih
    exact ih
  | case3 inQuote cs hdoubled ih => exact ih
  | case4 inQuote c cs hdoubled hquote hliteral tokens quoteOpen hscan ih =>
    rw [hscan] at ih
    exact ih
  | case5 inQuote c cs hdoubled hquote hletter count rest token tokens quoteOpen hscan ih =>
    obtain ⟨rfl, hc⟩ : inQuote = false ∧ isLetter c = true := by simpa using hletter
    rw [hscan] at ih
    have hnext : rest.head?.any isLetter = true → opensWithLetters tokens = true := fun habuts => by
      have hopens := opensWithLetters_scan habuts
      rwa [hscan] at hopens
    show Abutting (token :: tokens)
    unfold token
    cases DateField.ofLetter? c with
    | some field => exact ⟨Nat.succ_pos _, hnext, ih⟩
    | none => exact ih

/-! ## Section 3: Reading until a number does not fit -/

/-- Tokens without unknown letters of which no number is followed by another one. -/
def areSpaced : List DateToken → Bool
  | [] => true
  | .literal _ :: tokens => areSpaced tokens
  | .field field count _ :: tokens =>
    (!isNumeric count field || !opensWithNumber tokens) && areSpaced tokens
  | .unknown _ :: _ => false

/-- Whether the number of a field that abuts has no more digits than the field has letters. -/
def fitsToken (v : DateTime) (names : CalendarNames) : DateToken → Bool
  | .field field count abuts =>
    !(abuts && isNumeric count field) || decide ((formatField v names count field).length ≤ count)
  | .literal _ | .unknown _ => true

/-- Whether the numbers of all fields that abut fit. -/
def fits (v : DateTime) (names : CalendarNames) (tokens : List DateToken) : Bool :=
  tokens.all (fitsToken v names)

section

variable {currentYear : Int} {v : DateTime} {names : CalendarNames} {tokens : List DateToken}

/-- A number that fits runs into nothing behind it. -/
theorem ends_of_fitsToken (hnames : names.AreRecognizable) {field : DateField} {count : Nat}
    {abuts : Bool} (h : areSpaced (.field field count abuts :: tokens) = true)
    (hfits : fitsToken v names (.field field count abuts) = true)
    (hnumeric : isNumeric count field = true) :
    opensWithDigit (written v names tokens) = false ∧
      (abuts = true → (formatField v names count field).length ≤ count) := by
  have hnumber : opensWithNumber tokens = false := by
    simp only [areSpaced, Bool.and_eq_true, hnumeric, Bool.not_true, Bool.false_or,
      Bool.not_eq_true'] at h
    exact h.1
  refine ⟨opensWithDigit_written v hnames hnumber, ?_⟩
  rintro rfl
  simpa [fitsToken, hnumeric] using hfits

/-- Tokens whose numbers fit can be read back. -/
theorem separated_of_fits (hnames : names.AreRecognizable) (h : areSpaced tokens = true)
    (hfits : fits v names tokens = true) : Separated v names tokens := by
  induction tokens with
  | nil => trivial
  | cons token tokens ih =>
    have hboth : (fitsToken v names token && fits v names tokens) = true := hfits
    obtain ⟨htoken, htokens⟩ := Bool.and_eq_true_iff.mp hboth
    cases token with
    | literal c => exact ih h htokens
    | field field count abuts =>
      exact ⟨ends_of_fitsToken hnames h htoken, ih (Bool.and_eq_true_iff.mp h).2 htokens⟩
    | unknown letter => cases h

/-- A number that does not fit leaves digits behind. -/
theorem readToken_cut (hyear : 0 ≤ v.date.year) (currentYear : Int) {field : DateField} {count : Nat}
    (hnumeric : isNumeric count field = true) (hpos : 0 < count)
    (hlong : count < (formatField v names count field).length) (source text rest : Text)
    (r : DateReading) :
    ∃ r' left, opensWithDigit left = true ∧
      readToken currentYear names source text (.field field count true)
        (r, formatField v names count field ++ rest) = .ok (r', left) := by
  have hlist := (nameList?_eq_none_iff names).mpr hnumeric
  -- what is written is a numeral; how it came about does not matter from here on
  rw [formatField_of_isNumeric hyear names hnumeric] at hlong ⊢
  generalize hdigits : padZeros count (numeral (fieldNumber v count field)) = digits at hlong ⊢
  obtain ⟨hnumeral, hvalue⟩ :=
    isNumeral_padZeros count (isNumeral_numeral (fieldNumber v count field))
  rw [hdigits] at hnumeral hvalue
  rw [numeral_value] at hvalue
  have htake := takeNumber_cut hnumeral (hvalue.le.trans (fieldNumber_le v count field)) hpos hlong
    text rest
  refine ⟨noteNumber currentYear r count (value (digits.take count)) field,
    digits.drop count ++ rest, ?_, ?_⟩
  · simp only [isNumeral, Bool.and_eq_true] at hnumeral
    have hdigit : digits[count].isDigit = true :=
      List.all_eq_true.mp hnumeral.2 _ (List.getElem_mem hlong)
    rw [List.drop_eq_getElem_cons hlong]
    exact hdigit
  · simp only [readToken, hlist, htake, if_true, Except.map]

/-- Where a name is wanted, digits are not read. -/
theorem readTokens_of_digit (hnames : names.AreRecognizable) (hspaced : areSpaced tokens = true)
    (hletters : opensWithLetters tokens = true) (hnumber : opensWithNumber tokens = false)
    (source text : Text) {left : Text} (hleft : opensWithDigit left = true) (r : DateReading) :
    readTokens currentYear names source text tokens (r, left) =
      .error (.unparseable text "expected a month, weekday or day period name") := by
  cases tokens with
  | nil => cases hletters
  | cons token tokens =>
    cases token with
    | literal c => cases hletters
    | unknown letter => cases hspaced
    | field field count abuts =>
      have hnumeric : ¬isNumeric count field = true := by simpa [opensWithNumber] using hnumber
      obtain ⟨list, hlist⟩ : ∃ list, nameList? names count field = some list := by
        rw [← Option.ne_none_iff_exists', ne_eq, nameList?_eq_none_iff]
        exact hnumeric
      obtain ⟨_, hnamed⟩ := recognizable_of_nameList? hnames hlist
      simp only [readTokens, readToken, hlist, takeName_of_digit hnamed.opens text hleft, Except.map]

/-- **A number that does not fit breaks off the reading**: the digits that are left stand where a
name should. -/
theorem readTokens_of_not_fits (hyear : 0 ≤ v.date.year) (hnames : names.AreRecognizable)
    (hspaced : areSpaced tokens = true) (habutting : Abutting tokens)
    (hfits : fits v names tokens = false) (source text : Text) (r : DateReading) :
    readTokens currentYear names source text tokens (r, written v names tokens) =
      .error (.unparseable text "expected a month, weekday or day period name") := by
  induction tokens generalizing r with
  | nil => cases hfits
  | cons token tokens ih =>
    have hwritten : written v names (token :: tokens) =
        formatToken v names token ++ written v names tokens := List.flatMap_cons
    have hboth : (fitsToken v names token && fits v names tokens) = false := hfits
    cases token with
    | literal c =>
      have htoken : readToken currentYear names source text (.literal c)
          (r, [c] ++ written v names tokens) = .ok (r, written v names tokens) := by
        simp [readToken, takeChar, Except.map]
      rw [hwritten, formatToken, readTokens, htoken]
      exact ih hspaced habutting hboth r
    | unknown letter => cases hspaced
    | field field count abuts =>
      obtain ⟨hpos, hletters, habutting⟩ := habutting
      have hrest : areSpaced tokens = true := (Bool.and_eq_true_iff.mp hspaced).2
      rw [hwritten, formatToken, readTokens]
      cases htoken : fitsToken v names (.field field count abuts) with
      | true =>
        -- this number fits, and it is a later one that does not
        rw [readToken_field hyear hnames currentYear source text
          (ends_of_fitsToken hnames hspaced htoken)]
        exact ih hrest habutting (by simpa [htoken] using hboth) _
      | false =>
        simp only [fitsToken, Bool.or_eq_false_iff, Bool.not_eq_false', Bool.and_eq_true,
          decide_eq_false_iff_not, Nat.not_le] at htoken
        obtain ⟨⟨rfl, hnumeric⟩, hlong⟩ := htoken
        -- its digits are left to the next field, which is a name: numbers do not follow each other
        obtain ⟨r', left, hleft, hread⟩ := readToken_cut hyear currentYear hnumeric hpos hlong
          source text (written v names tokens) r
        rw [hread]
        have hnumber : opensWithNumber tokens = false := by
          simpa [areSpaced, hnumeric, hrest] using hspaced
        exact readTokens_of_digit hnames hrest (hletters rfl) hnumber source text hleft r'

/-! ## Section 4: What is noted in the end -/

/-- The number of letters of the last year field. -/
def lastYearCount? : List DateToken → Option Nat
  | [] => none
  | .field .year count _ :: tokens => (lastYearCount? tokens).or (some count)
  | _ :: tokens => lastYearCount? tokens

/-- The year that is read from a field of so many letters. -/
def readYear (currentYear : Int) (v : DateTime) (count : Nat) : Int :=
  if count = 2 then expandYear currentYear (v.date.year % 100).toNat else v.date.year

theorem year_mem_of_lastYearCount? {count : Nat} (h : lastYearCount? tokens = some count) :
    DateField.year ∈ fields tokens := by
  induction tokens with
  | nil => cases h
  | cons token tokens ih =>
    cases token with
    | literal c => exact ih h
    | unknown letter => exact ih h
    | field field letters abuts =>
      have hfields : fields (.field field letters abuts :: tokens) = field :: fields tokens := rfl
      rw [hfields]
      by_cases hfield : field = .year
      · rw [hfield]
        exact List.mem_cons_self
      · refine List.mem_cons_of_mem _ (ih ?_)
        cases field <;> first | exact absurd rfl hfield | exact h

/-- The last year is noted, whatever has been noted before. -/
theorem noteField_year (hyear : 0 ≤ v.date.year) (r : DateReading) (count : Nat) :
    noteField currentYear v r count .year =
      { r with year := some (readYear currentYear v count) } := by
  -- all years of dates are below the greatest year that is read
  have hmax : v.date.year ≤ 262142 := v.date.year_range.2
  have hread : v.date.year.toNat ≤ maxReadYear := by
    unfold maxReadYear
    omega
  have hcast : (v.date.year.toNat : Int) = v.date.year := Int.toNat_of_nonneg hyear
  by_cases hcount : count = 2
  · simp [noteField, isNumeric, noteNumber, fieldNumber, readYear, hcount]
  · simp [noteField, isNumeric, noteNumber, fieldNumber, readYear, hcount, hread, hcast]

/-- Other fields do not touch the year. -/
theorem noteField_of_ne_year {field : DateField} (hfield : field ≠ .year) (hyear : 0 ≤ v.date.year)
    (count : Nat) (seen : List DateField) (year : Option Int) :
    noteField currentYear v { DateReading.of v seen with year := year } count field =
      { DateReading.of v (field :: seen) with year := year } := by
  have hnoted : noteField currentYear v (.of v seen) count field = .of v (field :: seen) :=
    noteField_of hyear (fun h => absurd h hfield) seen
  rw [← hnoted]
  cases field with
  | year => exact absurd rfl hfield
  | month =>
    unfold noteField
    split <;> rfl
  | _ => rfl

/-- **The fields are noted as they were written**, and of the years the last one counts. -/
theorem noteTokens_of_lastYear (hyear : 0 ≤ v.date.year) (seen : List DateField)
    (year : Option Int) :
    noteTokens currentYear v tokens { DateReading.of v seen with year := year } =
      { DateReading.of v ((fields tokens).reverse ++ seen) with
        year := ((lastYearCount? tokens).map (readYear currentYear v)).or year } := by
  induction tokens generalizing seen year with
  | nil => rfl
  | cons token tokens ih =>
    cases token with
    | literal c => exact ih seen year
    | unknown letter => exact ih seen year
    | field field count abuts =>
      have hfields : fields (.field field count abuts :: tokens) = field :: fields tokens := rfl
      rw [hfields, List.reverse_cons, List.append_assoc, List.singleton_append]
      by_cases hfield : field = .year
      · -- this year is noted over the one before it, and gives way to one that follows
        subst hfield
        have hnoted : noteField currentYear v { DateReading.of v seen with year := year } count .year =
            { DateReading.of v (.year :: seen) with year := some (readYear currentYear v count) } := by
          rw [noteField_year hyear]
          simp [DateReading.of]
        rw [noteTokens, hnoted, ih, lastYearCount?]
        cases lastYearCount? tokens <;> rfl
      · have hlast : lastYearCount? (.field field count abuts :: tokens) = lastYearCount? tokens := by
          cases field <;> first | exact absurd rfl hfield | rfl
        rw [noteTokens, noteField_of_ne_year hfield hyear, ih, hlast]

/-- All fields of a pattern are noted as they are when its last year can be told. -/
theorem noteTokens_start (hyear : 0 ≤ v.date.year) {count : Nat}
    (hlast : lastYearCount? tokens = some count)
    (hwindow : count = 2 → InWindow currentYear v.date.year) :
    noteTokens currentYear v tokens .start = .of v (fields tokens) := by
  have hstart : DateReading.start = { DateReading.of v [] with year := none } := by
    simp [DateReading.of, DateReading.start]
  have hread : readYear currentYear v count = v.date.year := by
    unfold readYear
    split
    · rename_i hcount
      exact expandYear_of_inWindow (hwindow hcount)
    · rfl
  rw [hstart, noteTokens_of_lastYear hyear, List.append_nil, DateReading.of_reverse, hlast]
  simp [DateReading.of, hread, year_mem_of_lastYearCount? hlast]

end

/-! ## Section 5: Patterns of whole dates -/

/-- A pattern without a fault that carries a day, a month and, where it has an hour of the half day,
the half, and in which no number is followed by another one or by a digit. -/
structure CarriesDate (p : DatePattern) : Prop where
  faultless : p.fault? = none
  spaced : areSpaced p.tokens = true
  day : .day ∈ fields p.tokens
  month : .month ∈ fields p.tokens
  period : .halfHour ∈ fields p.tokens ∨ .halfHourFromZero ∈ fields p.tokens →
    .dayPeriod ∈ fields p.tokens

theorem quoteOpen_of_fault? {p : DatePattern} (h : p.fault? = none) : p.quoteOpen = false := by
  unfold fault? at h
  split at h
  · cases h
  · simpa using h

theorem format_of_fault? {p : DatePattern} (h : p.fault? = none) (v : DateTime)
    (names : CalendarNames) : p.format v names = .ok (written v names p.tokens) := by
  rw [format, h]
  rfl

/-- **An explicit pattern reads back what it writes**, with the names of every locale, if it carries
a whole date, whose year, where it is cut to two digits, can be told from them. What is read is what
the pattern carries of the date and time. Where a number that abuts on a name does not fit into its
field, nothing is read at all. -/
theorem read_of_carriesDate (currentYear : Int) (tag : LocaleTag) {source : Text}
    (h : (parse source).CarriesDate) {count : Nat}
    (hlast : lastYearCount? (parse source).tokens = some count) (v : DateTime)
    (hyear : 0 ≤ v.date.year) (hwindow : count = 2 → InWindow currentYear v.date.year) :
    ∃ text, (parse source).format v (.ofLocale tag) = .ok text ∧
      (fits v (.ofLocale tag) (parse source).tokens = true →
        (parse source).read currentYear (.ofLocale tag) text =
          .ok (v.carried (fields (parse source).tokens))) ∧
      (fits v (.ofLocale tag) (parse source).tokens = false →
        (parse source).read currentYear (.ofLocale tag) text =
          .error (.unparseable text "expected a month, weekday or day period name")) := by
  have hnames := CalendarNames.areRecognizable_ofLocale tag
  refine ⟨_, format_of_fault? h.faultless v _, fun hfits => ?_, fun hfits => ?_⟩
  · have hresolve := DateReading.resolve_of v (year_mem_of_lastYearCount? hlast) h.month h.day h.period
    unfold DatePattern.read
    rw [readTokens_written hyear hnames (separated_of_fits hnames h.spaced hfits),
      noteTokens_start hyear hlast hwindow]
    simp [bind, Except.bind, quoteOpen_of_fault? h.faultless, hresolve]
  · unfold DatePattern.read
    rw [readTokens_of_not_fits hyear hnames h.spaced (abutting_scan false source) hfits]
    rfl

/-- A day of two letters directly before a month, and a leap second after midnight. -/
theorem read_of_carriesDate_abutting :
    let fr : LocaleTag := ⟨"fr".toList, none, none, []⟩
    let v : DateTime := ⟨⟨1066, 10, 14, by decide, by decide⟩,
      ⟨0, 5, 59, 1500000000, by decide, by decide, by decide, by decide⟩⟩
    let d : DateTime := ⟨v.date,
      ⟨0, 5, 59, 999000000, by decide, by decide, by decide, by decide⟩⟩
    let p := parse "EEE ddMMM yyyy KK:mm:ss.SSSa".toList
    p.CarriesDate ∧ lastYearCount? p.tokens = some 4 ∧ 0 ≤ v.date.year ∧
      p.format v (.ofLocale fr) = .ok "dim. 14oct. 1066 00:05:59.999AM".toList ∧
      p.read 2026 (.ofLocale fr) "dim. 14oct. 1066 00:05:59.999AM".toList = .ok d := by
  intro fr v d p
  have hcarries : p.CarriesDate :=
    ⟨by decide +kernel, by decide +kernel, by decide +kernel, by decide +kernel, by decide +kernel⟩
  have hlast : lastYearCount? p.tokens = some 4 := by decide +kernel
  have hformat : p.format v (.ofLocale fr) = .ok "dim. 14oct. 1066 00:05:59.999AM".toList := by
    decide +kernel
  obtain ⟨text, htext, hread, -⟩ :=
    read_of_carriesDate 2026 fr hcarries hlast v (by decide) (fun h => absurd h (by decide))
  obtain rfl := Except.ok.inj (htext.symm.trans hformat)
  refine ⟨hcarries, hlast, by decide, hformat, (hread (by decide +kernel)).trans ?_⟩
  decide +kernel

/-- A day of one letter directly before a month, on a day of two digits. -/
theorem long_day_before_month_unread :
    let en : LocaleTag := ⟨"en".toList, none, none, []⟩
    let v : DateTime := .ofDate ⟨2024, 3, 12, by decide, by decide⟩
    let p := parse "dMMM yyyy".toList
    p.CarriesDate ∧ lastYearCount? p.tokens = some 4 ∧
      p.format v (.ofLocale en) = .ok "12Mar 2024".toList ∧
      p.read 2026 (.ofLocale en) "12Mar 2024".toList =
        .error (.unparseable "12Mar 2024".toList
          "expected a month, weekday or day period name") := by
  intro en v p
  refine ⟨⟨?_, ?_, ?_, ?_, ?_⟩, ?_⟩ <;> decide +kernel

end DatePattern

end MessageCatalog
