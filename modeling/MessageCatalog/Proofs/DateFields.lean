import MessageCatalog.Calendar.Style
import MessageCatalog.Proofs.TemplateScanner
import Mathlib.Data.List.Infix
import Mathlib.Tactic.SplitIfs

/-!
# Fields of a date read back

A field of a date is written as a row of digits or as a name from a list. A row of digits is read
back when no digit follows it; a name is read back when no other name of its list is its beginning,
or begins with it. What is read is then noted as the field of the date that was written.

## Main statements

* `takeNumber_append`, `takeName_append` : a number and a name are read back
* `CalendarNames.areRecognizable_ofLocale` : the names of every locale can be told apart
* `readToken_field` : a field is read back and noted
-/

namespace MessageCatalog

open Text

namespace Text

/-! ## Section 1: Digits -/

/-- Whether a text begins with a digit. -/
def opensWithDigit (t : Text) : Bool := t.head?.any Char.isDigit

theorem opensWithDigit_append {t : Text} (h : t ≠ []) (rest : Text) :
    opensWithDigit (t ++ rest) = opensWithDigit t := by
  obtain ⟨c, cs, rfl⟩ := List.exists_cons_of_ne_nil h
  rfl

theorem takeWhile_digits {digits rest : Text} (h : digits.all Char.isDigit = true)
    (hrest : opensWithDigit rest = false) :
    (digits ++ rest).takeWhile Char.isDigit = digits := by
  rw [List.takeWhile_append_of_pos (List.all_eq_true.mp h)]
  cases rest with
  | nil => simp
  | cons c rest =>
    have hc : c.isDigit = false := by simpa [opensWithDigit] using hrest
    rw [List.takeWhile_cons_of_neg (by simp [hc]), List.append_nil]

/-- Zeros in front make a row of digits longer, but stand for the same number. -/
theorem isNumeral_padZeros (width : Nat) {t : Text} (h : isNumeral t = true) :
    isNumeral (padZeros width t) = true ∧ value (padZeros width t) = value t := by
  have hzeros : ∀ n, (List.replicate n '0').all Char.isDigit = true := fun n => by
    rw [List.all_replicate]
    cases n <;> simp
  simp only [isNumeral, Bool.and_eq_true, Bool.not_eq_true', List.isEmpty_eq_false_iff] at h
  refine ⟨?_, ?_⟩
  · simp [isNumeral, padZeros, List.leftpad, h]
  · simp [value, padZeros, List.leftpad, Nat.ofDigitChars_append, Nat.ofDigitChars_replicate_zero]

end Text

namespace DatePattern

/-- **A number is read back** when no digit follows it. -/
theorem takeNumber_append {digits : Text} (h : isNumeral digits = true)
    (hvalue : value digits ≤ maxFieldValue) {width : Option Nat}
    (hwidth : ∀ w, width = some w → digits.length ≤ w) (text : Text) {rest : Text}
    (hrest : opensWithDigit rest = false) :
    takeNumber text width (digits ++ rest) = .ok (value digits, rest) := by
  simp only [isNumeral, Bool.and_eq_true, Bool.not_eq_true', List.isEmpty_eq_false_iff] at h
  obtain ⟨hne, hdigits⟩ := h
  have htake : ∀ w, width = some w → digits.take w = digits := fun w hw =>
    List.take_of_length_le (hwidth w hw)
  unfold takeNumber
  simp only [takeWhile_digits hdigits hrest]
  cases width with
  | none => rw [if_neg hne, if_pos hvalue, List.drop_left]
  | some w =>
    simp only [htake w rfl]
    rw [if_neg hne, if_pos hvalue, List.drop_left]

/-! ## Section 2: Names -/

/-- Texts of which neither begins with the other. -/
def Apart (a b : Text) : Prop := startsWith a b = false ∧ startsWith b a = false

instance (a b : Text) : Decidable (Apart a b) := inferInstanceAs (Decidable (_ ∧ _))

/-- Only one of two texts that are apart can stand at the beginning of a text. -/
theorem startsWith_append_of_apart {name other : Text} (h : Apart name other) (rest : Text) :
    startsWith other (name ++ rest) = false := by
  obtain ⟨h, h'⟩ := h
  rw [Bool.eq_false_iff]
  intro hstarts
  obtain ⟨tail, htail⟩ : ∃ tail, name ++ rest = other ++ tail := by
    obtain ⟨tail, htail⟩ := Option.isSome_iff_exists.mp hstarts
    exact ⟨tail, stripPrefix?_eq_some_iff.mp htail⟩
  -- the shorter one of the two begins the other
  rcases List.append_eq_append_iff.mp htail with ⟨more, rfl, -⟩ | ⟨more, rfl, -⟩
  · simp [startsWith, stripPrefix?_eq_some_iff.mpr rfl] at h
  · simp [startsWith, stripPrefix?_eq_some_iff.mpr rfl] at h'

/-- One more name is kept if the text begins with it and it is as long as the one kept so far. -/
def longer (rest : Text) (best : Option (Nat × Text)) : Text × Nat → Option (Nat × Text)
  | (name, i) =>
    if startsWith name rest then
      match best with
      | some (_, longest) => if longest.length ≤ name.length then some (i, name) else best
      | none => some (i, name)
    else best

theorem longestName?_eq (rest : Text) (names : List Text) :
    longestName? rest names = names.zipIdx.foldl (longer rest) none := rfl

/-- Names that a text does not begin with do not count. -/
theorem foldl_longer {rest : Text} {entries : List (Text × Nat)}
    (h : ∀ entry ∈ entries, startsWith entry.1 rest = false) (best : Option (Nat × Text)) :
    entries.foldl (longer rest) best = best := by
  induction entries with
  | nil => rfl
  | cons entry entries ih =>
    obtain ⟨hentry, hentries⟩ := List.forall_mem_cons.mp h
    have hstep : longer rest best entry = best := by simp [longer, hentry]
    rw [List.foldl_cons, hstep, ih hentries]

/-- **A name is found again** among names that are apart, whatever follows it. -/
theorem longestName?_append {names : List Text} (h : names.Pairwise Apart) {i : Nat} {name : Text}
    (hi : names[i]? = some name) (rest : Text) :
    longestName? (name ++ rest) names = some (i, name) := by
  obtain ⟨hlt, rfl⟩ := List.getElem?_eq_some_iff.mp hi
  have hsplit : names = names.take i ++ names[i] :: names.drop (i + 1) := by
    rw [← List.drop_eq_getElem_cons hlt, List.take_append_drop]
  have hlength : (names.take i).length = i := List.length_take_of_le hlt.le
  have hstarts : startsWith names[i] (names[i] ++ rest) = true := by
    simp [startsWith, stripPrefix?_eq_some_iff.mpr rfl]
  rw [hsplit, List.pairwise_append, List.pairwise_cons] at h
  obtain ⟨-, ⟨hafter, -⟩, hbefore⟩ := h
  have hothers : ∀ other ∈ names.take i ++ names.drop (i + 1),
      startsWith other (names[i] ++ rest) = false := by
    intro other hother
    rcases List.mem_append.mp hother with hother | hother
    · exact startsWith_append_of_apart (hbefore other hother _ List.mem_cons_self).symm rest
    · exact startsWith_append_of_apart (hafter other hother) rest
  have hentries : names.zipIdx = (names.take i).zipIdx ++
      (names[i], i) :: (names.drop (i + 1)).zipIdx (i + 1) := by
    conv_lhs => rw [hsplit]
    rw [List.zipIdx_append, List.zipIdx_cons, hlength, Nat.zero_add]
  have hstep : longer (names[i] ++ rest) none (names[i], i) = some (i, names[i]) := by
    simp [longer, hstarts]
  rw [longestName?_eq, hentries, List.foldl_append, List.foldl_cons,
    foldl_longer fun entry hentry =>
      hothers entry.1 (List.mem_append_left _ (List.fst_mem_of_mem_zipIdx hentry)), hstep]
  exact foldl_longer (fun entry hentry =>
    hothers entry.1 (List.mem_append_right _ (List.fst_mem_of_mem_zipIdx hentry))) _

theorem takeName_append {names : List Text} (h : names.Pairwise Apart) {i : Nat} {name : Text}
    (hi : names[i]? = some name) (text rest : Text) :
    takeName text names (name ++ rest) = .ok (i, rest) := by
  simp only [takeName, longestName?_append h hi, List.drop_left]

/-- Names that can be told apart, of which none is empty or begins with a digit. -/
structure Recognizable (size : Nat) (names : List Text) : Prop where
  length_eq : names.length = size
  apart : names.Pairwise Apart
  opens : ∀ name ∈ names, name ≠ [] ∧ opensWithDigit name = false

instance (size : Nat) (names : List Text) : Decidable (Recognizable size names) :=
  decidable_of_iff (names.length = size ∧ names.Pairwise Apart ∧
      ∀ name ∈ names, name ≠ [] ∧ opensWithDigit name = false)
    ⟨fun ⟨hlength, hapart, hopens⟩ => ⟨hlength, hapart, hopens⟩,
      fun ⟨hlength, hapart, hopens⟩ => ⟨hlength, hapart, hopens⟩⟩

end DatePattern

/-- Tables of names in which every list can be told apart. -/
structure CalendarNames.AreRecognizable (names : CalendarNames) : Prop where
  months : DatePattern.Recognizable 12 names.months
  monthsShort : DatePattern.Recognizable 12 names.monthsShort
  weekdays : DatePattern.Recognizable 7 names.weekdays
  weekdaysShort : DatePattern.Recognizable 7 names.weekdaysShort
  dayPeriods : DatePattern.Recognizable 2 names.dayPeriods

/-- **The names of every locale can be told apart.** -/
theorem CalendarNames.areRecognizable_ofLocale (tag : LocaleTag) :
    (CalendarNames.ofLocale tag).AreRecognizable := by
  unfold CalendarNames.ofLocale
  split_ifs
  · exact ⟨by decide +kernel, by decide +kernel, by decide +kernel, by decide +kernel,
      by decide +kernel⟩
  · exact ⟨by decide +kernel, by decide +kernel, by decide +kernel, by decide +kernel,
      by decide +kernel⟩
  · exact ⟨by decide +kernel, by decide +kernel, by decide +kernel, by decide +kernel,
      by decide +kernel⟩
  · exact ⟨by decide +kernel, by decide +kernel, by decide +kernel, by decide +kernel,
      by decide +kernel⟩

namespace DatePattern

/-! ## Section 3: What a field says -/

/-- Whether a field of so many letters is written in digits, as all are that have no names. -/
def isNumeric (count : Nat) : DateField → Bool
  | .month => count < 3
  | .weekday | .dayPeriod => false
  | _ => true

theorem nameList?_eq_none_iff (names : CalendarNames) {count : Nat} {field : DateField} :
    nameList? names count field = none ↔ isNumeric count field = true := by
  cases field
  case month =>
    simp only [nameList?, isNumeric, decide_eq_true_eq]
    split_ifs <;> simp <;> omega
  all_goals simp [nameList?, isNumeric]

/-- The number that a field of a date and time is written as. -/
def fieldNumber (v : DateTime) (count : Nat) : DateField → Nat
  | .year => if count = 2 then (v.date.year % 100).toNat else v.date.year.toNat
  | .month => v.date.month
  | .day => v.date.day
  | .weekday => v.date.weekday
  | .hour => v.time.hour
  | .hourFromOne => if v.time.hour = 0 then 24 else v.time.hour
  | .halfHour => if v.time.hour % 12 = 0 then 12 else v.time.hour % 12
  | .halfHourFromZero => v.time.hour % 12
  | .minute => v.time.minute
  | .second => v.time.second
  | .millisecond => v.time.milliseconds
  | .dayPeriod => if 12 ≤ v.time.hour then 1 else 0

/-- The place of the name that a field of a date and time is written as. -/
def fieldPlace (v : DateTime) : DateField → Nat
  | .month => v.date.month - 1
  | .weekday => v.date.weekday
  | .dayPeriod => if 12 ≤ v.time.hour then 1 else 0
  | _ => 0

/-- A field without names is written as its number; of a year this takes one that is not
negative. -/
theorem formatField_of_isNumeric {v : DateTime} (hyear : 0 ≤ v.date.year) (names : CalendarNames)
    {count : Nat} {field : DateField} (h : isNumeric count field = true) :
    formatField v names count field = padZeros count (numeral (fieldNumber v count field)) := by
  cases field <;> simp only [isNumeric, decide_eq_true_eq, Bool.false_eq_true] at h
  case year =>
    by_cases hcount : count = 2
    · simp [formatField, fieldNumber, hcount]
    · have hnat : v.date.year.natAbs = v.date.year.toNat := by omega
      simp [formatField, fieldNumber, hcount, paddedInteger, Int.not_lt.mpr hyear, hnat]
  case month =>
    have hfour : ¬4 ≤ count := by omega
    have hthree : count ≠ 3 := by omega
    simp [formatField, fieldNumber, hfour, hthree]
  all_goals rfl

/-- A field with names is written as the name at its place. -/
theorem formatField_of_nameList? (v : DateTime) {names : CalendarNames} {count : Nat}
    {field : DateField} {list : List Text} (h : nameList? names count field = some list) :
    formatField v names count field = nameAt list (fieldPlace v field) := by
  cases field <;> simp only [nameList?, reduceCtorEq, Option.some.injEq] at h
  case month =>
    simp only [formatField, fieldPlace]
    split_ifs at h ⊢ <;> simp_all
  case weekday =>
    simp only [formatField, fieldPlace]
    split_ifs at h ⊢ <;> simp_all
  case dayPeriod =>
    subst h
    rfl

theorem daysInMonth_le (year : Int) (month : Nat) : daysInMonth year month ≤ 31 := by
  unfold daysInMonth
  split <;> (try split) <;> omega

/-- No field of a date is too large to be read. -/
theorem fieldNumber_le (v : DateTime) (count : Nat) (field : DateField) :
    fieldNumber v count field ≤ maxFieldValue := by
  have hyear : v.date.year ≤ 262142 := v.date.year_range.2
  have hmonth := v.date.month_range.2
  have hday := v.date.day_range.2.trans (daysInMonth_le _ _)
  have hweekday := v.date.weekday_lt
  have hhour := v.time.hour_range
  have hminute := v.time.minute_range
  have hsecond := v.time.second_range
  have hmillisecond : v.time.milliseconds ≤ 999 := by
    unfold TimeOfDay.milliseconds
    omega
  unfold maxFieldValue
  cases field <;> simp only [fieldNumber]
  all_goals (try split_ifs) <;> omega

/-- The place of a name is one of its list. -/
theorem getElem?_fieldPlace (v : DateTime) {names : CalendarNames} (hnames : names.AreRecognizable)
    {count : Nat} {field : DateField} {list : List Text}
    (h : nameList? names count field = some list) :
    (∃ size, Recognizable size list) ∧
      list[fieldPlace v field]? = some (nameAt list (fieldPlace v field)) := by
  have hplace : ∀ {size : Nat} {list : List Text} {i : Nat}, Recognizable size list → i < size →
      (∃ size, Recognizable size list) ∧ list[i]? = some (nameAt list i) := by
    intro size list i hlist hi
    have hlt : i < list.length := hlist.length_eq ▸ hi
    exact ⟨⟨size, hlist⟩, by simp [nameAt, hlt]⟩
  have hmonth := v.date.month_range
  cases field <;> simp only [nameList?, reduceCtorEq, Option.some.injEq] at h
  case month =>
    have hlt : v.date.month - 1 < 12 := by omega
    split_ifs at h
    · exact Option.some.inj h ▸ hplace hnames.months hlt
    · exact Option.some.inj h ▸ hplace hnames.monthsShort hlt
  case weekday =>
    rw [← h]
    split
    · exact hplace hnames.weekdays v.date.weekday_lt
    · exact hplace hnames.weekdaysShort v.date.weekday_lt
  case dayPeriod =>
    rw [← h]
    refine hplace hnames.dayPeriods ?_
    show (if 12 ≤ v.time.hour then 1 else 0) < 2
    split <;> omega

/-! ## Section 4: One token -/

/-- What is noted of a field that was read back. -/
def noteField (currentYear : Int) (v : DateTime) (r : DateReading) (count : Nat)
    (field : DateField) : DateReading :=
  if isNumeric count field then noteNumber currentYear r count (fieldNumber v count field) field
  else noteName r (fieldPlace v field) field

/-- **A field is read back and noted.** A number must not run into digits behind it, and must fit
into the width of its field where that abuts on another one. -/
theorem readToken_field {v : DateTime} (hyear : 0 ≤ v.date.year) {names : CalendarNames}
    (hnames : names.AreRecognizable) (currentYear : Int) (source text : Text) {field : DateField}
    {count : Nat} {abuts : Bool} {rest : Text}
    (hrest : isNumeric count field = true → opensWithDigit rest = false ∧
      (abuts = true → (formatField v names count field).length ≤ count))
    (r : DateReading) :
    readToken currentYear names source text (.field field count abuts)
        (r, formatField v names count field ++ rest) =
      .ok (noteField currentYear v r count field, rest) := by
  unfold noteField
  cases hlist : nameList? names count field with
  | some list =>
    have hnumeric : ¬isNumeric count field = true := by
      rw [← nameList?_eq_none_iff names, hlist]
      simp
    obtain ⟨⟨_, hnamed⟩, hplace⟩ := getElem?_fieldPlace v hnames hlist
    rw [if_neg hnumeric, formatField_of_nameList? v hlist]
    simp only [readToken, hlist, takeName_append hnamed.apart hplace, Except.map]
  | none =>
    have hnumeric := (nameList?_eq_none_iff names).mp hlist
    obtain ⟨hopens, hwidth⟩ := hrest hnumeric
    rw [formatField_of_isNumeric hyear names hnumeric] at hwidth ⊢
    obtain ⟨hdigits, hvalue⟩ :=
      isNumeral_padZeros count (isNumeral_numeral (fieldNumber v count field))
    rw [numeral_value] at hvalue
    have htake : takeNumber text (if abuts then some count else none)
        (padZeros count (numeral (fieldNumber v count field)) ++ rest) =
          .ok (fieldNumber v count field, rest) := by
      rw [takeNumber_append hdigits (hvalue.le.trans (fieldNumber_le v count field)) ?_ text hopens,
        hvalue]
      intro width hw
      cases abuts with
      | false => simp at hw
      | true => exact (Option.some.inj hw) ▸ hwidth rfl
    rw [if_pos hnumeric]
    simp only [readToken, hlist, htake, Except.map]

end DatePattern

end MessageCatalog
